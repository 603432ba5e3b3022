import Missive.Proofs.Message.Complete
import Missive.Proofs.Message.Itself
import Missive.Proofs.Message.Parts

/-!
# What makes messages equal

Comparing goes through maps and extensions in the order of one side.  This module says what it comes to: lists are
equal item by item (`equals_list_iff`), maps and extensions if they can be paired (`equals_map_iff`), and messages if
they agree in their slots, unknown fields and extensions (`equals_value_iff`).

**Sources.**  What was read from one place is taken for equal.  That is right if values are what stands in the places
that they were read from (`Value.From`).

**Equivalence.**  On values of a kind, equality is reflexive and symmetric, and transitive if it is on their parts
(`Equates`).  The parts that may break transitivity are messages that hold any other one, so transitivity is kept
apart.
-/

namespace Missive

open Plan List

variable {loose loose' : List (String × Value)}

/-! ## Sources -/

/-- What stands in the places that values are read from: objects, storages and the cases of oneofs. -/
structure Sources where
  object : Nat → Value
  storage : Nat → List Value
  member : Nat → Value

/-- A value that is what stands in the places it was read from. -/
def Value.From (w : Sources) : Value → Prop
  | .message head slots extensions loose => ∀ o ∈ head.origin,
    w.object o.object = .message head slots extensions loose ∧ ∀ s ∈ o.storage, w.storage s = slots
  | .case tag v loose => ∀ o ∈ tag.origin, w.member o = .case tag v loose
  | _ => True

section sources

variable {w : Sources} {a b : Head} {slots slots' : List Value} {extensions extensions' : List (Extension × Value)}

section

variable (one : Value.From w (.message a slots extensions loose))
  (other : Value.From w (.message b slots' extensions' loose'))

include one other

lemma Value.From.eq_of_sameObject (same : a.sameObject b = true) :
    Value.message a slots extensions loose = .message b slots' extensions' loose' := by
  unfold Head.sameObject at same
  split at same
  · rename_i x y here there
    rw [← (one x here).1, ← (other y there).1, beq_iff_eq.1 same]
  · cases same

lemma Value.From.eq_of_sameStorage (same : a.sameStorage b = true) :
    slots = slots' := by
  unfold Head.sameStorage at same
  split at same
  · rename_i s s' here there
    obtain ⟨o, origin, storage⟩ := Option.bind_eq_some_iff.1 here
    obtain ⟨o', origin', storage'⟩ := Option.bind_eq_some_iff.1 there
    rw [← (one o origin).2 s storage, ← (other o' origin').2 s' storage', beq_iff_eq.1 same]
  · cases same

end

/-- What was read from one place is the same. -/
lemma Value.From.eq_of_isSame {v v' : Value} (one : v.From w) (other : v'.From w) (same : v.isSame v' = true) :
    v = v' := by
  cases v with
  | message =>
    cases v' with
    | message => exact one.eq_of_sameObject other same
    | _ => simp [Value.isSame] at same
  | case =>
    cases v' with
    | case =>
      simp only [Value.isSame, Bool.and_eq_true, beq_iff_eq] at same
      obtain ⟨o, origin⟩ := Option.isSome_iff_exists.1 same.1
      rw [← one o origin, ← other o (same.2 ▸ origin)]
    | _ => simp [Value.isSame] at same
  | _ => simp [Value.isSame] at same

end sources

/-! ## Scalars -/

lemma Binary64.equal_comm (x y : Binary64) : x.equal y = y.equal x := by
  simp only [Binary64.equal, Bool.and_comm, Bool.and_assoc, eq_comm, Bool.beq_eq_decide_eq]

lemma Scalar.equal_comm (a b : Scalar) : a.equal b = b.equal a := by
  cases a <;> cases b <;> simp [Scalar.equal, Scalar.int?, Binary64.equal_comm, eq_comm, Bool.beq_eq_decide_eq]

lemma Binary64.equal_trans {x y z : Binary64} (one : x.equal y = true) (other : y.equal z = true) :
    x.equal z = true := by
  simp only [Binary64.equal, Bool.and_eq_true, Bool.or_eq_true, beq_iff_eq] at one other ⊢
  obtain ⟨⟨number, -⟩, same⟩ := one
  obtain ⟨⟨-, number'⟩, same'⟩ := other
  have zeros : ∀ {u v : Binary64}, u.bits = v.bits → u.isZero = v.isZero := by
    intro u v bits
    simp only [Binary64.isZero, Binary64.pattern, bits]
  refine ⟨⟨number, number'⟩, ?_⟩
  rcases same with bits | ⟨zero, zero'⟩
  · rcases same' with bits' | ⟨zero, zero'⟩
    · exact .inl (bits.trans bits')
    · exact .inr ⟨(zeros bits).trans zero, zero'⟩
  · rcases same' with bits | ⟨-, zero'⟩
    · exact .inr ⟨zero, (zeros bits).symm.trans zero'⟩
    · exact .inr ⟨zero, zero'⟩

lemma Scalar.equal_trans {a b c d : Scalar} (one : a.sameType d = true) (two : b.sameType d = true)
    (three : c.sameType d = true) (first : a.equal b = true) (second : b.equal c = true) : a.equal c = true := by
  cases d <;> cases a <;> simp [Scalar.sameType] at one <;> cases b <;> simp [Scalar.sameType] at two <;>
    cases c <;> simp [Scalar.sameType] at three
  case float.float.float.float => exact Binary64.equal_trans first second
  all_goals simp_all [Scalar.equal, Scalar.int?]

/-- Rules that ask for scalars of the right type, and for numbers that are numbers. -/
def Rules.Plain (R : Rules) : Prop :=
  ∀ type s, R.scalar type s → s.sameType type.default = true ∧ s.isNaN = false

lemma Rules.Plain.numeric {R : Rules} (plain : R.Plain) : R.Numeric := fun type s holds => (plain type s holds).2

/-! ## Pairs -/

/-- The items of two lists can be paired in some order. -/
def Pairable {α β : Type} (R : α → β → Prop) (as : List α) (bs : List β) : Prop :=
  ∃ cs, Forall₂ R as cs ∧ cs.Perm bs

section pairable

variable {α β γ : Type} {R : α → β → Prop} {S : β → γ → Prop} {T : α → γ → Prop} {as : List α} {bs : List β}
  {cs : List γ}

lemma Pairable.length_eq (h : Pairable R as bs) : as.length = bs.length := by
  obtain ⟨cs, each, perm⟩ := h
  rw [each.length_eq, perm.length_eq]

lemma Pairable.exists_of_mem (h : Pairable R as bs) {a : α} (member : a ∈ as) : ∃ b ∈ bs, R a b := by
  obtain ⟨cs, each, perm⟩ := h
  obtain ⟨b, inside, related⟩ := exists_right_of_mem each member
  exact ⟨b, perm.mem_iff.1 inside, related⟩

/-- As many items, of which no two have the same partner. -/
lemma pairable_of_apart (length : as.length = bs.length) (each : ∀ a ∈ as, ∃ b ∈ bs, R a b)
    (apart : as.Pairwise fun a a' => ∀ b ∈ bs, R a b → ¬R a' b) : Pairable R as bs := by
  induction as generalizing bs with
  | nil => exact ⟨[], .nil, by rw [length_eq_zero_iff.1 length.symm]⟩
  | cons a as ih =>
    obtain ⟨b, member, related⟩ := each a (.head _)
    obtain ⟨others, apart⟩ := pairwise_cons.1 apart
    obtain ⟨front, back, rfl⟩ := append_of_mem member
    have rest : Pairable R as (front ++ back) := by
      refine ih ?_ (fun a' later => ?_) (apart.imp fun unlike b' inside => unlike b' ?_)
      · simp only [length_append, length_cons] at length ⊢
        omega
      · obtain ⟨b', inside, related'⟩ := each a' (.tail _ later)
        refine ⟨b', ?_, related'⟩
        rcases mem_append.1 inside with left | right
        · exact mem_append_left _ left
        · rcases mem_cons.1 right with rfl | right
          · exact absurd related' (others a' later b' inside related)
          · exact mem_append_right _ right
      · rcases mem_append.1 inside with left | right
        · exact mem_append_left _ left
        · exact mem_append_right _ (.tail _ right)
    obtain ⟨cs, forall₂, perm⟩ := rest
    exact ⟨b :: cs, .cons related forall₂, (perm.cons b).trans perm_middle.symm⟩

lemma Pairable.imp {R' : α → β → Prop} (h : Pairable R as bs) (stronger : ∀ a ∈ as, ∀ b ∈ bs, R a b → R' a b) :
    Pairable R' as bs := by
  obtain ⟨cs, each, perm⟩ := h
  refine ⟨cs, ?_, perm⟩
  have inside : ∀ c ∈ cs, c ∈ bs := fun c member => perm.mem_iff.1 member
  clear perm
  induction each with
  | nil => exact .nil
  | cons first _ ih =>
    refine .cons (stronger _ (.head _) _ (inside _ (.head _)) first) ?_
    exact ih (fun a later b => stronger a (.tail _ later) b) fun c later => inside c (.tail _ later)

lemma Pairable.flip (h : Pairable R as bs) : Pairable (fun b a => R a b) bs as := by
  obtain ⟨cs, each, perm⟩ := h
  exact perm_comp_forall₂ perm.symm each.flip

lemma Pairable.trans (one : Pairable R as bs) (other : Pairable S bs cs) :
    Pairable (fun a c => ∃ b ∈ bs, R a b ∧ S b c) as cs := by
  obtain ⟨bs', each, perm⟩ := one
  obtain ⟨cs', each', perm'⟩ := other
  obtain ⟨cs'', again, perm''⟩ := perm_comp_forall₂ perm each'
  refine ⟨cs'', ?_, perm''.trans perm'⟩
  have inside : ∀ b ∈ bs', b ∈ bs := fun b member => perm.mem_iff.1 member
  clear perm perm'' perm' each'
  induction each generalizing cs'' with
  | nil =>
    cases again
    exact .nil
  | cons first _ ih =>
    cases again with
    | cons second rest =>
      exact .cons ⟨_, inside _ (.head _), first, second⟩ (ih _ rest fun b later => inside b (.tail _ later))

end pairable

/-! ## Containers -/

section containers

variable {p : Program}

variable {v : Value} {key : FieldType}

lemma equals_scalar_iff {a b : Scalar} : Equals p (.scalar a) (.scalar b) ↔ a.equal b = true := by
  simp [Equals, equal]

lemma equals_none (p : Program) (v : Value) : (Equals p .none v ↔ v = .none) ∧ (Equals p v .none ↔ v = .none) := by
  cases v with
  | scalar s => cases s <;> simp [Equals, equal, Scalar.equal, Scalar.int?]
  | message head => cases named : p.takes head.type "__eq__" <;> simp [Equals, equal, named]
  | _ => simp [Equals, equal]

lemma equals_none_iff : Equals p .none v ↔ v = .none := (equals_none p v).1

lemma equals_none_right_iff : Equals p v .none ↔ v = .none := (equals_none p v).2

/-- What is no number is not equal to itself. -/
lemma not_equals_self (isNaN : v.isNaN = true) : ¬Equals p v v := by
  unfold Value.isNaN Scalar.isNaN at isNaN
  split at isNaN
  · split at isNaN
    · simp [Equals, equal, Scalar.equal, Binary64.equal, isNaN]
    · cases isNaN
  · cases isNaN

/-- **Lists** are equal item by item. -/
lemma equals_list_iff {as bs : List Value} (same : ∀ a ∈ as, ∀ b ∈ bs, a.isSame b = true → Equals p a b) :
    Equals p (.list as) (.list bs) ↔ Forall₂ (Equals p) as bs :=
  (TellsApart.list fun a here b there => tells_equals.unless (same a here b there)).iff

def FieldType.Keys (key : FieldType) (entries : List (Key × Value)) : Prop :=
  ∀ e ∈ entries, ∃ s, e.1 = .scalar s ∧ s.sameType key.default = true ∧ s.isNaN = false

lemma FieldType.Keys.equal_trans {as bs cs : List (Key × Value)} (one : key.Keys as) (two : key.Keys bs)
    (three : key.Keys cs) {a b c : Key × Value} (here : a ∈ as) (between : b ∈ bs) (there : c ∈ cs)
    (first : a.1.equal b.1 = true) (second : b.1.equal c.1 = true) : a.1.equal c.1 = true := by
  obtain ⟨s, isKey, type, -⟩ := one a here
  obtain ⟨s', isKey', type', -⟩ := two b between
  obtain ⟨s'', isKey'', type'', -⟩ := three c there
  rw [isKey, isKey', Key.equal] at first
  rw [isKey', isKey'', Key.equal] at second
  rw [isKey, isKey'', Key.equal]
  exact Scalar.equal_trans type type' type'' first second

lemma FieldType.Keys.equal_comm {as bs : List (Key × Value)} (one : key.Keys as) (two : key.Keys bs)
    {a b : Key × Value} (here : a ∈ as) (there : b ∈ bs) : a.1.equal b.1 = b.1.equal a.1 := by
  obtain ⟨s, isKey, -⟩ := one a here
  obtain ⟨s', isKey', -⟩ := two b there
  rw [isKey, isKey', Key.equal, Key.equal, Scalar.equal_comm]

/-- What stands under a key, if no two keys are equal. -/
lemma FieldType.Keys.atKey?_eq {as bs : List (Key × Value)} (keys : key.Keys bs)
    (distinct : bs.Pairwise fun a b => a.1.equal b.1 = false) (keys' : key.Keys as) {a b : Key × Value}
    (here : a ∈ as) (there : b ∈ bs) (same : b.1.equal a.1 = true) : atKey? a.1 bs = some b.2 := by
  have back : a.1.equal b.1 = true := (keys'.equal_comm keys here there).trans same
  induction bs with
  | nil => cases there
  | cons x rest ih =>
    rw [pairwise_cons] at distinct
    rcases mem_cons.1 there with rfl | later
    · simp [atKey?, same]
    · have apart : ¬x.1.equal a.1 = true := by
        intro first
        have equal := keys.equal_trans keys' keys (.head _) here there first back
        simp [distinct.1 b later] at equal
      rw [← ih (fun e inside => keys e (.tail _ inside)) distinct.2 later]
      simp [atKey?, apart]

/-- **Maps** are equal if their entries can be paired. -/
lemma equals_map_iff {readOnly readOnly' : Bool} {as bs : List (Key × Value)} (keys : key.Keys as)
    (keys' : key.Keys bs) (distinct : as.Pairwise fun a b => a.1.equal b.1 = false)
    (distinct' : bs.Pairwise fun a b => a.1.equal b.1 = false)
    (same : ∀ a ∈ as, ∀ b ∈ bs, a.2.isSame b.2 = true → Equals p a.2 b.2) :
    Equals p (.map readOnly as) (.map readOnly' bs)
      ↔ Pairable (fun a b => b.1.equal a.1 = true ∧ Equals p a.2 b.2) as bs := by
  have apart : TellsApart p False (Equals p) (as.map (·.2)) (bs.map (·.2)) := forall_mem_map.2 fun a here =>
    forall_mem_map.2 fun b there => tells_equals.unless (same a here b there)
  refine apart.map.iff.trans ⟨?_, fun pairs => ⟨pairs.length_eq, fun a here => ?_⟩⟩
  · rintro ⟨length, each⟩
    refine pairable_of_apart length (fun a member => ?_) ?_
    · obtain ⟨v, found, equals⟩ := each a member
      obtain ⟨b, inside, rfl⟩ := Option.map_eq_some_iff.1 found
      have sameKey : b.1.equal a.1 = true := by simpa using find?_some inside
      exact ⟨b, mem_of_find?_eq_some inside, sameKey, equals⟩
    · -- Two keys that are equal to a third one are equal.
      refine distinct.imp_of_mem fun {a a'} here here' unlike b there one other => ?_
      have symm : a.1.equal b.1 = true := (keys.equal_comm keys' here there).trans one.1
      rw [keys.equal_trans keys' keys here there here' symm other.1] at unlike
      cases unlike
  · obtain ⟨b, there, sameKey, equals⟩ := pairs.exists_of_mem here
    exact ⟨b.2, keys'.atKey?_eq distinct' keys here there sameKey, equals⟩

lemma equals_case_iff {tag tag' : CaseTag} {a b : Value} :
    Equals p (.case tag a loose) (.case tag' b loose')
      ↔ (tag.owner = tag'.owner ∧ tag.slot = tag'.slot ∧ tag.number.equal tag'.number = true) ∧ Equals p a b := by
  simp only [Equals, equal]
  split
  · rename_i same
    simp only [Bool.and_eq_true, beq_iff_eq, and_assoc] at same
    simp [same]
  · rename_i unlike
    simp only [Bool.and_eq_true, beq_iff_eq, and_assoc] at unlike
    simp [unlike]

end containers

/-! ## Messages -/

section messages

variable {p : Program}

variable {P : Value → Prop} {m : Content}

/-- Slots are compared one by one. -/
lemma allEqual_iff (comparable : p.Comparable) {as bs : List Value} (length : as.length = bs.length) :
    allEqual (equalSlots p as bs) = .ok true ↔ ∀ i, Equals p (as.getD i .none) (bs.getD i .none) := by
  rw [(tells_slots (R := Equals p) comparable length fun _ _ _ _ => tells_equals).iff, forall₂_iff_get]
  constructor
  · rintro ⟨-, each⟩ i
    by_cases room : i < as.length
    · rw [getD_eq_getElem _ _ room, getD_eq_getElem _ _ (length ▸ room)]
      exact each i room (length ▸ room)
    · rw [getD_eq_default _ _ (by omega), getD_eq_default _ _ (by omega)]
      exact equals_none_iff.2 rfl
  · intro each
    refine ⟨length, fun i room room' => ?_⟩
    simpa [room, room'] using each i

/-- What makes two messages of a class equal, which are told apart by their unknown fields, slots and extensions. -/
structure Content.Agrees (p : Program) (c : ClassPlan) (a b : Content) : Prop where
  unknown : a.head.unknown = b.head.unknown
  slots : c.isAny = false → ∀ i, Equals p (a.slot i) (b.slot i)
  any : c.isAny = true → Any.slotsEqual p a.slots b.slots (equalSlots p a.slots b.slots) = .ok true
  extensions : Pairable (fun x y => x.1 = y.1 ∧ Equals p x.2 y.2) a.extensions b.extensions

variable {R : Rules} {content : Value → Prop} {levels : Nat} {t : TypeId} {c : ClassPlan} {w : Sources}

lemma Value.Every.slot (every : m.value.Every P) {i : Nat} (room : i < m.slots.length) : (m.slot i).Every P := by
  refine every.part (mem_append_left _ (mem_append_left _ ?_))
  rw [Content.slot, getD_eq_getElem _ _ room]
  exact getElem_mem room

lemma Value.Every.extension (every : m.value.Every P) {x : Extension × Value} (member : x ∈ m.extensions) :
    x.2.Every P :=
  every.part (mem_append_left _ (mem_append_right _ (mem_map_of_mem member)))

section agrees

variable (numeric : R.Numeric) (inner : (inside p R content levels).Reflexive p) (comparable : p.Comparable)

include numeric inner comparable

lemma Content.Fits.agrees_self {m : Content} (fits : m.Fits R (inside p R content levels) t c) : m.Agrees p c m where
  unknown := rfl
  slots := fun plain i => by
    by_cases room : i < c.slots.length
    · exact (fits_slot_same_self numeric inner (fits.slots plain i _ (getElem?_eq_getElem room))).1
    · rw [Content.slot, getD_eq_default _ _ (by rw [fits.length plain]; omega)]
      exact equals_none_iff.2 rfl
  any := fun isAny => (fits.any isAny).slotsEqual_self inner comparable
  extensions := by
    refine ⟨m.extensions, forall₂_same.2 fun x member => ⟨rfl, ?_⟩, .refl _⟩
    exact (fits_extension_same_self numeric inner (fits.extensions x member).2.2.2).1

variable (found : p.plan? t = some c) (shared : c.isAny = true → c.isIndirected = true) {a b : Content}
  (fits : a.Fits R (inside p R content levels) t c) (fits' : b.Fits R (inside p R content levels) t c)
  (here : a.value.Every (Value.From w)) (there : b.value.Every (Value.From w))

include fits fits' here there

include shared in
/-- Fields are compared slot by slot, unless they are in one storage. -/
lemma tells_fields_fits :
    Tells False (Compared.fieldsEqual p c ⟨a.head, a.slots, a.extensions, []⟩ ⟨b.head, b.slots, b.extensions, []⟩
        (equalSlots p a.slots b.slots))
      ((c.isAny = false → ∀ i, Equals p (a.slot i) (b.slot i))
        ∧ (c.isAny = true → Any.slotsEqual p a.slots b.slots (equalSlots p a.slots b.slots) = .ok true)) := by
  refine tells_fields shared ⟨rfl, rfl⟩ (fun one => ?_) (fun plain => ⟨?_, False.elim⟩) fun isAny => ⟨?_, False.elim⟩
  · have own := fits.agrees_self numeric inner comparable
    have slots : a.slots = b.slots := here.here.eq_of_sameStorage there.here one
    have slot : ∀ i, a.slot i = b.slot i := fun i => by rw [Content.slot, Content.slot, slots]
    exact ⟨fun plain i => slot i ▸ own.slots plain i, fun isAny => slots ▸ own.any isAny⟩
  · rw [allEqual_iff comparable ((fits.length plain).trans (fits'.length plain).symm)]
    simp [plain, Content.slot]
  · simp [isAny]

omit comparable in
/-- Extensions are compared in pairs. -/
lemma tells_extensions_fits :
    Tells False (if a.extensions.length = b.extensions.length then
        equalExtensions p a.head b.head a.extensions b.extensions else .ok false)
      (Pairable (fun x y => x.1 = y.1 ∧ Equals p x.2 y.2) a.extensions b.extensions) := by
  have each : ∀ x ∈ a.extensions, ∀ v, (x.1, v) ∈ b.extensions → TellsUnless False
      (a.head.sameSetting b.head x.1.number && x.2.isNaN || x.2.isSame v) (equal p x.2 v) (Equals p x.2 v) := by
    refine fun x member v member' => tells_equals.unless fun skipped => ?_
    obtain ⟨-, -, -, extensionFits⟩ := fits.extensions x member
    have itself := (fits_extension_same_self numeric inner extensionFits).1
    rcases Bool.or_eq_true_iff.1 skipped with setting | isSame
    · exact absurd itself (not_equals_self (Bool.and_eq_true_iff.1 setting).2)
    · exact (here.extension member).here.eq_of_isSame (there.extension member').here isSame ▸ itself
  refine (tells_extensions (R := fun _ => Equals p) fits'.distinct each).congr
    ⟨?_, fun pairs => ⟨pairs.length_eq, fun x member => ?_⟩⟩
  · rintro ⟨length, each⟩
    refine pairable_of_apart length (fun x member => ?_) ?_
    · obtain ⟨v, inside, equals⟩ := each x member
      exact ⟨(x.1, v), inside, rfl, equals⟩
    · have distinct : a.extensions.Pairwise fun x x' => x.1.number ≠ x'.1.number := pairwise_map.1 fits.distinct
      exact distinct.imp fun unlike y _ one other => unlike (by rw [one.1, other.1])
  · obtain ⟨⟨e, v⟩, inside, rfl, equals⟩ := pairs.exists_of_mem member
    exact ⟨v, inside, equals⟩

include found shared in
/-- **Messages** of a class are equal if they agree. -/
lemma equals_value_iff : Equals p a.value b.value ↔ a.Agrees p c b := by
  refine (tells_message comparable (fits'.type ▸ found) (fits.type.trans fits'.type.symm) ⟨fits.plain, fits'.plain⟩
    ⟨fits.whole, fits'.whole⟩ (fun one => ?_) (tells_fields_fits numeric inner comparable shared fits fits' here there)
    (tells_extensions_fits numeric inner fits fits' here there) fun closed => ?_).iff.trans ?_
  · obtain rfl : a = b := Content.value_injective (here.here.eq_of_sameObject there.here one)
    have own := fits.agrees_self numeric inner comparable
    exact ⟨⟨own.slots, own.any⟩, rfl, own.extensions⟩
  · rw [fits.extensions_eq_nil closed, fits'.extensions_eq_nil closed]
    exact ⟨[], .nil, .refl _⟩
  · exact ⟨fun ⟨⟨slots, any⟩, unknown, extensions⟩ => ⟨unknown, slots, any, extensions⟩, fun agrees =>
      ⟨⟨agrees.slots, agrees.any⟩, agrees.unknown, agrees.extensions⟩⟩

end agrees

end messages

end Missive
