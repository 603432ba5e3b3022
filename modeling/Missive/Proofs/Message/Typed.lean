import Missive.Message.Decode
import Missive.Proofs.Plan.Regular
import Missive.Proofs.Wire.Scalar

/-!
# Typed messages

Setters do not check types, so a message is well typed only if somebody says so.  `Typed` says it of a
message value and the class it is to be of: every slot holds what its plan asks for, the case of a
oneof is that of a member, and extensions lie in the extension ranges of the class.

What is asked of scalars, of payloads, of extensions and of the bytes of unknown fields is left to
`Rules`, since writing, reading and comparing ask for different things.

**Levels.**  `Typed` counts down the levels that may be nested below a message, the way a cursor counts
them: a message or group inside a message is one level below it, an entry of a map too, and a message
in a map is two levels below.  The content of a message that holds any other one is not nested in it:
it is written on its own, and may have any depth.
-/

namespace Missive

open Plan

variable {v : Value} {t : TypeId} {type : FieldType} {group : Bool} {Q : Value → Prop}

/-! ## What is asked of the parts of a message -/

/-- What is asked of the scalars of a message, of what is written behind a length (packed scalars,
messages and the entries of maps), of extensions and of unknown fields.  The rule for unknown fields
knows how many levels may be nested below the message they belong to. -/
structure Rules where
  scalar : FieldType → Scalar → Prop
  packed : FieldType → List Value → Prop := fun _ _ => True
  message : Value → Prop := fun _ => True
  entry : FieldType → FieldType → Bool → Key × Value → Prop := fun _ _ _ _ => True
  extension : TypeId → Extension → Value → Prop := fun _ _ _ => True
  unknown : Nat → TypeId → Bytes → Prop := fun _ _ _ => True

/-- What is asked of the messages inside a message: those one level below, those in maps, and those
that a message holds any other one as. -/
structure Inside where
  levels : Nat
  nested : TypeId → Value → Prop
  entry : TypeId → Value → Prop
  content : Value → Prop

def Rules.Holds (R : Rules) (type : FieldType) (v : Value) : Prop :=
  ∃ s, v = .scalar s ∧ R.scalar type s

section parts

variable (R : Rules) (I : Inside)

/-- A list of scalars. -/
def ScalarsFit (type : FieldType) (packed : Bool) (v : Value) : Prop :=
  ∃ items, v = .list items ∧ (∀ x ∈ items, R.Holds type x) ∧ (packed = true → R.packed type items)

def MessageFits (group : Bool) (t : TypeId) (v : Value) : Prop :=
  I.nested t v ∧ (group = false → R.message v)

def MessagesFit (group : Bool) (t : TypeId) (v : Value) : Prop :=
  ∃ items, v = .list items ∧ ∀ x ∈ items, MessageFits R I group t x

/-- An entry of a map. -/
def EntryFits (key value : FieldType) (ref : Option ClassRef) (e : Key × Value) : Prop :=
  (∃ s, e.1 = .scalar s ∧ R.scalar key s) ∧ (match ref with
      | none => R.Holds value e.2
      | some ref => I.entry ref.target e.2 ∧ R.message e.2)
    ∧ R.entry key value ref.isSome e

/-- What the slot of a field may hold. -/
def Plan.FieldKind.Fits : FieldKind → Value → Prop
  | .scalar type presence _, v => (presence = true ∧ v = .none) ∨ R.Holds type v
  | .repeated type packed, v => ScalarsFit R type packed v
  | .message group ref, v => v = .none ∨ MessageFits R I group ref.target v
  | .repeatedMessage group ref, v => MessagesFit R I group ref.target v
  | .map key value ref, v =>
    ∃ entries, v = .map false entries ∧ (entries ≠ [] → 1 ≤ I.levels)
      ∧ entries.Pairwise (fun a b => a.1.equal b.1 = false)
      ∧ ∀ e ∈ entries, EntryFits R I key value ref e

/-- What the case of a member may hold. -/
def Plan.MemberKind.Fits : MemberKind → Value → Prop
  | .scalar type _, v => R.Holds type v
  | .message group ref _, v => MessageFits R I group ref.target v
  | .entry _, _ => False

/-- What the slot of a oneof may hold: nothing, or the case of a member. -/
def Plan.OneofPlan.Fits (t : TypeId) (index : Nat) (o : OneofPlan) (v : Value) : Prop :=
  v = .none ∨ ∃ number member origin x, v = .case { owner := t, slot := index, number := .int number, origin } x []
      ∧ o.member? number = some member ∧ member.kind.Fits R I x

/-- What a slot may hold. -/
def Plan.SlotPlan.Fits (t : TypeId) (index : Nat) : SlotPlan → Value → Prop
  | .field f, v => f.kind.Fits R I v
  | .oneof o, v => o.Fits R I t index v

/-- What an extension may be set to. -/
def Extension.Fits (e : Extension) (v : Value) : Prop :=
  if e.type.isScalar then
    if e.repeated then ScalarsFit R e.type (e.packed && e.type.isPackable) v else R.Holds e.type v
  else
    ∃ t, e.messageType = some t ∧ if e.repeated then MessagesFit R I (e.type == .group) t v
      else MessageFits R I (e.type == .group) t v

/-- A reference that leads to a class wherever it stands. -/
def Plan.ClassRef.direct (t : TypeId) : ClassRef := ⟨t, "", [], .type t, .type t⟩

def Extension.kind (p : Program) (e : Extension) : FieldKind :=
  if e.type.isScalar then
    if e.repeated then .repeated e.type (e.packed && e.type.isPackable) else .scalar e.type true e.type.default
  else if e.repeated then
    .repeatedMessage (e.type == .group) (.direct (e.messageType.getD p.baseType))
  else .message (e.type == .group) (.direct (e.messageType.getD p.baseType))

/-- What a message that holds any other one may hold: the type, and bytes or a content. -/
def AnyFits (slots : List Value) : Prop :=
  ∃ url data content, slots = [.text url, data, content] ∧ R.scalar .string (.text url)
    ∧ ((∃ b, data = .bytes b ∧ R.scalar .bytes (.bytes b) ∧ (content = .none ∨ I.content content))
      ∨ (data = .none ∧ I.content content))

/-- What a message of a class may be. -/
structure Content.Fits (t : TypeId) (c : ClassPlan) (m : Content) : Prop where
  type : m.head.type = t
  whole : m.head.bare = false
  plain : m.loose = []
  unknown : R.unknown I.levels t m.head.unknown
  length : c.isAny = false → m.slots.length = c.slots.length
  slots : c.isAny = false → ∀ i (plan : SlotPlan), c.slots[i]? = some plan → plan.Fits R I t i (m.slot i)
  any : c.isAny = true → AnyFits R I m.slots
  distinct : (m.extensions.map (·.1.number)).Nodup
  extensions : ∀ x ∈ m.extensions, x.1.extended = t ∧ c.ranges.contains x.1.number = true
    ∧ R.extension t x.1 x.2 ∧ x.1.Fits R I x.2

end parts

/-! ## Typed messages -/

lemma Content.value_injective : Function.Injective Content.value := by
  rintro ⟨head, slots, extensions, loose⟩ ⟨head', slots', extensions', loose'⟩ same
  obtain ⟨rfl, rfl, rfl, rfl⟩ := Value.message.inj same
  rfl

section typed

variable (p : Program) (R : Rules) (content : Value → Prop)

/-- A message value of a class, given what is asked of its parts. -/
def TypedBy (I : Inside) (t : TypeId) (v : Value) : Prop :=
  ∃ c m, p.plan? t = some c ∧ v = Content.value m ∧ m.Fits R I t c

/-- A message value of a class with at most so many levels below it. -/
def Typed : (levels : Nat) → TypeId → Value → Prop
  | 0 => TypedBy p R ⟨0, fun _ _ => False, fun _ _ => False, content⟩
  | 1 => TypedBy p R ⟨1, Typed 0, fun _ _ => False, content⟩
  | n + 2 => TypedBy p R ⟨n + 2, Typed (n + 1), Typed n, content⟩

/-- What is asked of the messages inside one with so many levels below it. -/
def inside (n : Nat) : Inside where
  levels := n
  nested := fun t v => ∃ k, n = k + 1 ∧ Typed p R content k t v
  entry := fun t v => ∃ k, n = k + 2 ∧ Typed p R content k t v
  content := content

lemma typed_eq (n : Nat) : Typed p R content n = TypedBy p R (inside p R content n) := by
  rcases n with _ | _ | n <;> simp [Typed, inside]

variable {p R content}

lemma Typed.fits {n : Nat} {m : Content} {c : ClassPlan} (typed : Typed p R content n t m.value)
    (found : p.plan? t = some c) : m.Fits R (inside p R content n) t c := by
  obtain ⟨c', m', found', same, fits⟩ := typed_eq p R content n ▸ typed
  cases found.symm.trans found'
  rwa [Content.value_injective same]

end typed

/-- What a class with a single slot asks of a message. -/
lemma Content.fits_single {R : Rules} {I : Inside} {c : ClassPlan} {m : Content} {plan : SlotPlan}
    (head : m.head.type = t ∧ m.head.bare = false ∧ R.unknown I.levels t m.head.unknown) (plain : m.loose = [])
    (isPlan : c.isAny = false ∧ c.slots = [plan]) (slots : m.slots = [v]) (fits : plan.Fits R I t 0 v)
    (distinct : (m.extensions.map (·.1.number)).Nodup) (extensions : ∀ x ∈ m.extensions, x.1.extended = t
      ∧ c.ranges.contains x.1.number = true ∧ R.extension t x.1 x.2 ∧ x.1.Fits R I x.2) : m.Fits R I t c := by
  refine ⟨head.1, head.2.1, plain, head.2.2, fun _ => by simp [isPlan, slots], fun _ i other there => ?_,
    by simp [isPlan], distinct, extensions⟩
  rw [isPlan.2] at there
  rcases i with _ | i
  · cases there
    simpa [Content.slot, slots] using fits
  · simp at there

/-- A message with one slot and no extensions. -/
lemma typed_headed {p : Program} {R : Rules} {content : Value → Prop} {levels : Nat} {head : Head} {plan : SlotPlan}
    (type : head.type = t) (whole : head.bare = false) (unknown : R.unknown levels t head.unknown)
    (isPlan : (p.plan? t).map (fun c => (c.isAny, c.slots)) = some (false, [plan]))
    (fits : plan.Fits R (inside p R content levels) t 0 v) : Typed p R content levels t (.message head [v] [] []) := by
  obtain ⟨c, found, isPlan⟩ := Option.map_eq_some_iff.1 isPlan
  rw [typed_eq]
  exact ⟨c, ⟨head, [v], [], []⟩, found, rfl, Content.fits_single ⟨type, whole, unknown⟩ rfl (Prod.mk.inj isPlan)
    rfl fits List.nodup_nil (by simp)⟩

/-! ## What holds of all values -/

/-- What holds of a value because it holds of its parts. -/
structure Rules.Closed (R : Rules) (Q : Value → Prop) : Prop where
  none : Q .none
  scalar : ∀ {type s}, R.scalar type s → Q (.scalar s)
  list : ∀ {items}, (∀ x ∈ items, Q x) → Q (.list items)
  map : ∀ {es : List (Key × Value)}, es.Pairwise (fun a b => a.1.equal b.1 = false) →
    (∀ e ∈ es, ∃ type s, e.1 = .scalar s ∧ R.scalar type s) → (∀ e ∈ es, Q e.2) → Q (.map false es)
  case : ∀ {owner slot number origin x}, Q x → Q (.case { owner, slot, number := .int number, origin } x [])

/-- What holds of the messages inside a message. -/
structure Inside.Only (I : Inside) (Q : Value → Prop) : Prop where
  nested : ∀ t v, I.nested t v → Q v
  entry : ∀ t v, I.entry t v → Q v

lemma only_inside {p : Program} {R : Rules} {content : Value → Prop} {n : Nat}
    (below : ∀ k < n, ∀ t v, Typed p R content k t v → Q v) : (inside p R content n).Only Q where
  nested := by
    rintro t v ⟨k, rfl, typed⟩
    exact below k (by omega) t v typed
  entry := by
    rintro t v ⟨k, rfl, typed⟩
    exact below k (by omega) t v typed

/-- What an extension is set to, a field of its kind may hold. -/
lemma Extension.Fits.kind {R : Rules} {I : Inside} {e : Extension} (fits : e.Fits R I v) (p : Program) :
    (e.kind p).Fits R I v := by
  revert fits
  unfold Extension.Fits Extension.kind
  cases e.type.isScalar with
  | true =>
    cases e.repeated with
    | true => exact id
    | false => exact .inr
  | false =>
    rintro ⟨t, isType, fits⟩
    revert fits
    rw [isType]
    cases e.repeated with
    | true => exact id
    | false => exact .inr

section closed

variable {R : Rules} {I : Inside} (closed : R.Closed Q) (only : I.Only Q)

include closed in
lemma Rules.Closed.holds (holds : R.Holds type v) : Q v := by
  obtain ⟨s, rfl, scalar⟩ := holds
  exact closed.scalar scalar

include closed in
lemma Rules.Closed.scalars {packed : Bool} (fits : ScalarsFit R type packed v) : Q v := by
  obtain ⟨items, rfl, all, -⟩ := fits
  exact closed.list fun x member => closed.holds (all x member)

include closed only

lemma Rules.Closed.messages (fits : MessagesFit R I group t v) : Q v := by
  obtain ⟨items, rfl, all⟩ := fits
  exact closed.list fun x member => only.nested _ _ (all x member).1

lemma Rules.Closed.field {kind : FieldKind} (fits : kind.Fits R I v) : Q v := by
  cases kind with
  | scalar =>
    rcases fits with ⟨-, rfl⟩ | holds
    · exact closed.none
    · exact closed.holds holds
  | repeated => exact closed.scalars fits
  | message =>
    rcases fits with rfl | fits
    · exact closed.none
    · exact only.nested _ _ fits.1
  | repeatedMessage => exact closed.messages only fits
  | map key value ref =>
    obtain ⟨es, rfl, -, distinct, all⟩ := fits
    refine closed.map distinct (fun e member => ⟨key, (all e member).1⟩) fun e member => ?_
    obtain ⟨-, valueFits, -⟩ := all e member
    cases ref with
    | none => exact closed.holds valueFits
    | some => exact only.entry _ _ valueFits.1

lemma Rules.Closed.slot {slot : Nat} {plan : SlotPlan} (fits : plan.Fits R I t slot v) : Q v := by
  cases plan with
  | field => exact closed.field only fits
  | oneof =>
    rcases fits with rfl | ⟨number, member, origin, x, rfl, -, fits⟩
    · exact closed.none
    · refine closed.case ?_
      generalize member.kind = kind at fits
      cases kind with
      | scalar => exact closed.holds fits
      | message => exact only.nested _ _ fits.1
      | entry => exact fits.elim

lemma Rules.Closed.extension {e : Extension} (fits : e.Fits R I v) : Q v := by
  unfold Extension.Fits at fits
  split at fits
  · split at fits
    · exact closed.scalars fits
    · exact closed.holds fits
  · obtain ⟨t', -, fits⟩ := fits
    split at fits
    · exact closed.messages only fits
    · exact only.nested _ _ fits.1

/-- **All parts** of a message are as they should be, if the messages inside it are. -/
lemma Rules.Closed.parts {c : ClassPlan} {m : Content} (contents : ∀ v, I.content v → Q v) (fits : m.Fits R I t c) :
    (∀ x ∈ m.slots, Q x) ∧ ∀ x ∈ m.extensions, Q x.2 := by
  refine ⟨?_, fun x member => closed.extension only (fits.extensions x member).2.2.2⟩
  cases isAny : c.isAny with
  | false =>
    intro x member
    obtain ⟨i, inside, rfl⟩ := List.getElem_of_mem member
    have room : i < c.slots.length := fits.length isAny ▸ inside
    have slot := closed.slot only (fits.slots isAny i _ (List.getElem?_eq_getElem room))
    simpa [Content.slot, inside] using slot
  | true =>
    obtain ⟨url, data, content, slots, text, rest⟩ := fits.any isAny
    rw [slots]
    simp only [List.forall_mem_cons, List.not_mem_nil, false_implies, implies_true, and_true]
    rcases rest with ⟨b, rfl, bytes, rfl | inside⟩ | ⟨rfl, inside⟩
    · exact ⟨closed.scalar text, closed.scalar bytes, closed.none⟩
    · exact ⟨closed.scalar text, closed.scalar bytes, contents _ inside⟩
    · exact ⟨closed.scalar text, closed.none, contents _ inside⟩

end closed

/-- **All levels.** -/
lemma Rules.Closed.typed {p : Program} {R : Rules} {content : Value → Prop} (closed : R.Closed Q)
    (contents : ∀ v, content v → Q v)
    (message : ∀ {n t c} {m : Content}, p.plan? t = some c → m.Fits R (inside p R content n) t c →
      (∀ x ∈ m.slots, Q x) → (∀ x ∈ m.extensions, Q x.2) → Q m.value)
    {n : Nat} (typed : Typed p R content n t v) : Q v := by
  induction n using Nat.strong_induction_on generalizing t v with
  | _ n ih =>
    rw [typed_eq] at typed
    obtain ⟨c, m, found, rfl, fits⟩ := typed
    obtain ⟨slots, extensions⟩ := closed.parts (only_inside fun k less _ _ => ih k less) contents fits
    exact message found fits slots extensions

/-! ## Two rules at once -/

/-- Rules that follow from two others, of which the first know so many levels more. -/
structure Rules.Join (R R' : Rules) (more : Nat) (S : Rules) : Prop where
  scalar : ∀ type s, R.scalar type s → R'.scalar type s → S.scalar type s
  packed : ∀ type items, R.packed type items → R'.packed type items → S.packed type items
  message : ∀ v, R.message v → R'.message v → S.message v
  entry : ∀ key value messages e, R.entry key value messages e → R'.entry key value messages e →
    S.entry key value messages e
  extension : ∀ t e v, R.extension t e v → R'.extension t e v → S.extension t e v
  unknown : ∀ levels t data, R.unknown (levels + more) t data → R'.unknown levels t data → S.unknown levels t data

/-- Demands on the messages inside a message that follow from two others. -/
structure Inside.Join (I I' : Inside) (more : Nat) (J : Inside) : Prop where
  levels : I.levels = J.levels + more
  levels' : I'.levels = J.levels
  nested : ∀ t v, I.nested t v → I'.nested t v → J.nested t v
  entry : ∀ t v, I.entry t v → I'.entry t v → J.entry t v
  content : ∀ v, I.content v → I'.content v → J.content v

section join

variable {R R' S : Rules} {I I' J : Inside} {more : Nat}

lemma Rules.Holds.join (rules : R.Join R' more S) (h : R.Holds type v) (h' : R'.Holds type v) : S.Holds type v := by
  obtain ⟨s, rfl, scalar⟩ := h
  obtain ⟨_, ⟨rfl⟩, scalar'⟩ := h'
  exact ⟨s, rfl, rules.scalar type s scalar scalar'⟩

lemma ScalarsFit.join (rules : R.Join R' more S) {packed : Bool} (h : ScalarsFit R type packed v)
    (h' : ScalarsFit R' type packed v) : ScalarsFit S type packed v := by
  obtain ⟨items, rfl, all, size⟩ := h
  obtain ⟨_, ⟨rfl⟩, all', size'⟩ := h'
  exact ⟨items, rfl, fun x member => (all x member).join rules (all' x member),
    fun packs => rules.packed _ _ (size packs) (size' packs)⟩

section

variable (rules : R.Join R' more S) (inner : I.Join I' more J)

include rules inner

lemma MessageFits.join (h : MessageFits R I group t v) (h' : MessageFits R' I' group t v) : MessageFits S J group t v :=
  ⟨inner.nested t v h.1 h'.1, fun isMessage => rules.message v (h.2 isMessage) (h'.2 isMessage)⟩

lemma MessagesFit.join (h : MessagesFit R I group t v) (h' : MessagesFit R' I' group t v) :
    MessagesFit S J group t v := by
  obtain ⟨items, rfl, all⟩ := h
  obtain ⟨_, ⟨rfl⟩, all'⟩ := h'
  exact ⟨items, rfl, fun x member => (all x member).join rules inner (all' x member)⟩

lemma EntryFits.join {key value : FieldType} {ref : Option ClassRef} {e : Key × Value}
    (h : EntryFits R I key value ref e) (h' : EntryFits R' I' key value ref e) : EntryFits S J key value ref e := by
  obtain ⟨⟨s, isKey, keyFits⟩, valueFits, size⟩ := h
  obtain ⟨⟨s', isKey', keyFits'⟩, valueFits', size'⟩ := h'
  obtain rfl : s = s' := by
    rw [isKey] at isKey'
    cases isKey'
    rfl
  refine ⟨⟨s, isKey, rules.scalar _ _ keyFits keyFits'⟩, ?_, rules.entry _ _ _ _ size size'⟩
  cases ref with
  | none => exact valueFits.join rules valueFits'
  | some =>
    exact ⟨inner.entry _ _ valueFits.1 valueFits'.1, rules.message _ valueFits.2 valueFits'.2⟩

lemma fits_field_join {kind : FieldKind} (h : kind.Fits R I v) (h' : kind.Fits R' I' v) : kind.Fits S J v := by
  cases kind with
  | scalar =>
    rcases h with unset | holds
    · exact .inl unset
    · exact h'.imp id fun holds' => holds.join rules holds'
  | repeated => exact h.join rules h'
  | message =>
    rcases h with unset | fits
    · exact .inl unset
    · exact h'.imp id fun fits' => fits.join rules inner fits'
  | repeatedMessage => exact h.join rules inner h'
  | map =>
    obtain ⟨entries, rfl, -, distinct, all⟩ := h
    obtain ⟨_, ⟨rfl⟩, room, -, all'⟩ := h'
    exact ⟨entries, rfl, inner.levels' ▸ room, distinct,
      fun e member => (all e member).join rules inner (all' e member)⟩

lemma fits_member_join {kind : MemberKind} (h : kind.Fits R I v) (h' : kind.Fits R' I' v) : kind.Fits S J v := by
  cases kind with
  | scalar => exact h.join rules h'
  | message => exact h.join rules inner h'
  | entry => exact h

lemma fits_slot_join {index : Nat} {plan : SlotPlan} (h : plan.Fits R I t index v) (h' : plan.Fits R' I' t index v) :
    plan.Fits S J t index v := by
  cases plan with
  | field => exact fits_field_join rules inner h h'
  | oneof =>
    rcases h with unset | ⟨number, member, origin, x, rfl, found, fits⟩
    · exact .inl unset
    · rcases h' with ⟨⟨⟩⟩ | ⟨_, member', _, _, ⟨rfl⟩, found', fits'⟩
      cases found.symm.trans found'
      exact .inr ⟨number, member, origin, x, rfl, found, fits_member_join rules inner fits fits'⟩

lemma fits_extension_join {e : Extension} (h : e.Fits R I v) (h' : e.Fits R' I' v) : e.Fits S J v := by
  unfold Extension.Fits at h h' ⊢
  split
  · rw [if_pos ‹_›] at h h'
    split
    · rw [if_pos ‹_›] at h h'
      exact h.join rules h'
    · rw [if_neg ‹_›] at h h'
      exact h.join rules h'
  · rw [if_neg ‹_›] at h h'
    obtain ⟨t, target, h⟩ := h
    obtain ⟨t', target', h'⟩ := h'
    cases target.symm.trans target'
    refine ⟨t, target, ?_⟩
    split
    · rw [if_pos ‹_›] at h h'
      exact h.join rules inner h'
    · rw [if_neg ‹_›] at h h'
      exact h.join rules inner h'

lemma AnyFits.join {slots : List Value} (h : AnyFits R I slots) (h' : AnyFits R' I' slots) : AnyFits S J slots := by
  obtain ⟨url, data, content, rfl, urlFits, rest⟩ := h
  obtain ⟨_, _, _, ⟨rfl⟩, urlFits', rest'⟩ := h'
  refine ⟨url, data, content, rfl, rules.scalar _ _ urlFits urlFits', ?_⟩
  rcases rest with ⟨b, rfl, dataFits, contentFits⟩ | ⟨rfl, contentFits⟩
  · rcases rest' with ⟨_, ⟨rfl⟩, dataFits', contentFits'⟩ | ⟨⟨⟩, -⟩
    refine .inl ⟨b, rfl, rules.scalar _ _ dataFits dataFits', ?_⟩
    rcases contentFits with none | contentFits
    · exact .inl none
    · exact contentFits'.imp id fun contentFits' => inner.content _ contentFits contentFits'
  · rcases rest' with ⟨_, ⟨⟩, -⟩ | ⟨-, contentFits'⟩
    exact .inr ⟨rfl, inner.content _ contentFits contentFits'⟩

lemma fits_content_join {c : ClassPlan} {m : Content} (h : m.Fits R I t c) (h' : m.Fits R' I' t c) :
    m.Fits S J t c where
  type := h.type
  whole := h.whole
  plain := h.plain
  unknown := rules.unknown _ _ _ (inner.levels ▸ h.unknown) (inner.levels' ▸ h'.unknown)
  length := h.length
  slots := fun plain i plan found =>
    fits_slot_join rules inner (h.slots plain i plan found) (h'.slots plain i plan found)
  any := fun isAny => (h.any isAny).join rules inner (h'.any isAny)
  distinct := h.distinct
  extensions := fun x member => by
    obtain ⟨extended, range, rule, fits⟩ := h.extensions x member
    obtain ⟨-, -, rule', fits'⟩ := h'.extensions x member
    exact ⟨extended, range, rules.extension _ _ _ rule rule', fits_extension_join rules inner fits fits'⟩

end

/-- What is typed by two rules is typed by what follows from both. -/
lemma Typed.join {p : Program} {content content' both : Value → Prop} (rules : R.Join R' more S)
    (contents : ∀ v, content v → content' v → both v) {n : Nat} (h : Typed p R content (n + more) t v)
    (h' : Typed p R' content' n t v) : Typed p S both n t v := by
  induction n using Nat.strong_induction_on generalizing t v with
  | _ n ih =>
    rw [typed_eq] at h h' ⊢
    have inner : (inside p R content (n + more)).Join (inside p R' content' n) more (inside p S both n) := by
      refine ⟨rfl, rfl, ?_, ?_, contents⟩
      · rintro t v ⟨k, level, typed⟩ ⟨k', rfl, typed'⟩
        obtain rfl : k = k' + more := by omega
        exact ⟨k', rfl, ih k' (by omega) typed typed'⟩
      · rintro t v ⟨k, level, typed⟩ ⟨k', rfl, typed'⟩
        obtain rfl : k = k' + more := by omega
        exact ⟨k', rfl, ih k' (by omega) typed typed'⟩
    obtain ⟨c, m, plan, rfl, fits⟩ := h
    obtain ⟨c', m', plan', same, fits'⟩ := h'
    cases plan.symm.trans plan'
    obtain rfl : m = m' := Content.value_injective same
    exact ⟨c, m, plan, rfl, fits_content_join rules inner fits fits'⟩

end join

end Missive
