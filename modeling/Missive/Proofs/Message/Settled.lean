import Missive.Proofs.Message.Equates
import Missive.Proofs.Message.Roundtrip

/-!
# Equal and written alike

Messages are compared by what they hold and not by how they are written.  The two need not be the same: zeros of either
sign are equal, and so are maps in a different order.  For messages without negative zeros, whose maps are in one
order and that can be read back, they are the same (`contentsEquate_packed`).

**Equal messages are written alike.**  What two equal messages carry under a number is encoded alike, and a message is
written as what it carries.

**Messages that are written alike are equal.**  They are read back as one message, and that is equal to both.
-/

namespace Missive

open Plan Schema List Program

variable {p : Program} {order : Key → Key → Prop} {R : Rules} {v : Value} {w : Sources}
  {Q content : Value → Prop} {t : TypeId} {files : List FileDecl} {options : Plan.Options}
variable {as bs : List (Key × Value)} {table : Option ExtensionTable}

/-! ## Canonical values -/

/-- A scalar that is no negative zero. -/
def Scalar.Unsigned (s : Scalar) : Prop := ∀ x : Binary64, s = .float x → x.isZero = true → x = .zero

/-- A value that has one form: no negative zero, and no map whose keys are in another order. -/
def Value.Canonical (order : Key → Key → Prop) : Value → Prop
  | .scalar s => s.Unsigned
  | .map _ entries => entries.Pairwise (fun a b => order a.1 b.1) ∧ ∀ e ∈ entries, ∀ s, e.1 = .scalar s → s.Unsigned
  | _ => True

lemma Scalar.eq_of_equal {a b d : Scalar} (one : a.sameType d = true) (other : b.sameType d = true)
    (unsigned : a.Unsigned) (unsigned' : b.Unsigned) (equal : a.equal b = true) : a = b := by
  cases d <;> cases a <;> simp [Scalar.sameType] at one <;> cases b <;> simp [Scalar.sameType] at other
  case float.float.float z x y =>
    simp only [Scalar.equal, Binary64.equal, Bool.and_eq_true, Bool.or_eq_true, beq_iff_eq] at equal
    rcases equal.2 with bits | ⟨zero, zero'⟩
    · cases x
      cases y
      exact congrArg _ (congrArg _ bits)
    · rw [unsigned x rfl zero, unsigned' y rfl zero']
  case bool.bool.bool z x y => cases x <;> cases y <;> simp_all [Scalar.equal, Scalar.int?]
  all_goals simp_all [Scalar.equal, Scalar.int?]

section canonical

lemma Rules.Holds.eq_of_equals (plain : R.Plain) {type : FieldType} {w : Value} (holds : R.Holds type v)
    (holds' : R.Holds type w) (canonical : v.Canonical order) (canonical' : w.Canonical order)
    (equals : Equals p v w) : v = w := by
  obtain ⟨s, rfl, scalar⟩ := holds
  obtain ⟨s', rfl, scalar'⟩ := holds'
  rw [equals_scalar_iff] at equals
  rw [Scalar.eq_of_equal (plain type s scalar).1 (plain type s' scalar').1 canonical canonical' equals]

/-- Lists of equal scalars are the same. -/
lemma ScalarsFit.eq_of_equals (plain : R.Plain) {type : FieldType} {packed : Bool} {w : Value}
    (fits : ScalarsFit R type packed v) (fits' : ScalarsFit R type packed w)
    (every : v.Every (Value.Canonical order)) (every' : w.Every (Value.Canonical order))
    (equals : Equals p v w) : v = w := by
  obtain ⟨as, rfl, all, -⟩ := fits
  obtain ⟨bs, rfl, all', -⟩ := fits'
  have scalars : ∀ a ∈ as, ∀ b ∈ bs, a.isSame b = true → Equals p a b := by
    intro a here b there isSame
    obtain ⟨s, rfl, -⟩ := all a here
    simp [Value.isSame] at isSame
  rw [equals_list_iff scalars] at equals
  have here := (Value.every_list.1 every).2
  have there := (Value.every_list.1 every').2
  clear scalars every every'
  congr 1
  induction equals with
  | nil => rfl
  | cons first _ ih =>
    rw [(all _ (.head _)).eq_of_equals plain (all' _ (.head _)) (here _ (.head _)).here (there _ (.head _)).here first]
    rw [ih (fun x later => all x (.tail _ later)) (fun x later => all' x (.tail _ later))
      (fun x later => here x (.tail _ later)) fun x later => there x (.tail _ later)]

/-- Entries that can be paired and are in one order are paired in that order. -/
lemma forall₂_of_ordered (asymm : ∀ k l, order k l → ¬order l k) {key : FieldType} (keys : key.Keys as)
    (keys' : key.Keys bs) (canonical : Value.Canonical order (.map false as))
    (canonical' : Value.Canonical order (.map false bs))
    (pairs : Pairable (fun a b => b.1.equal a.1 = true ∧ Equals p a.2 b.2) as bs) :
    Forall₂ (fun a b => a.1 = b.1 ∧ Equals p a.2 b.2) as bs := by
  have same : Pairable (fun a b => a.1 = b.1 ∧ Equals p a.2 b.2) as bs := by
    refine pairs.imp fun a here b there pair => ⟨?_, pair.2⟩
    obtain ⟨s, isKey, type, -⟩ := keys a here
    obtain ⟨s', isKey', type', -⟩ := keys' b there
    have equal := pair.1
    rw [isKey, isKey', Key.equal] at equal
    rw [isKey, isKey', Scalar.eq_of_equal type' type (canonical'.2 b there s' isKey') (canonical.2 a here s isKey) equal]
  obtain ⟨cs, each, perm⟩ := same
  have ordered : cs.Pairwise fun a b => order a.1 b.1 :=
    pairwise_of_keys (each.flip.imp fun _ _ pair => pair.1.symm) canonical.1
  have isSame : cs = bs :=
    Perm.eq_of_pairwise (fun a b _ _ less greater => absurd greater (asymm _ _ less)) ordered canonical'.1 perm
  exact isSame ▸ each

end canonical

/-! ## Equal messages are written alike -/

/-- The messages inside a message are written alike if they are equal. -/
structure Inside.Alike (p : Program) (Q : Value → Prop) (I : Inside) : Prop where
  nested : ∀ t v w, I.nested t v ∧ v.Every Q → I.nested t w ∧ w.Every Q → Equals p v w → p.serialize v = p.serialize w
  entry : ∀ t v w, I.entry t v ∧ v.Every Q → I.entry t w ∧ w.Every Q → Equals p v w → p.serialize v = p.serialize w

section fields

variable {chains : Prop} {I : Inside} {w : Value} {number : Int}

lemma isPresent_of_equals (equals : Equals p v w) : v.isPresent = w.isPresent := by
  have present : ∀ {x : Value}, x.isPresent = false ↔ x = .none := by
    intro x
    cases x with
    | scalar s => cases s <;> simp [Value.isPresent]
    | _ => simp [Value.isPresent]
  rw [Bool.eq_iff_iff, ← Bool.not_eq_false, ← Bool.not_eq_false, present, present]
  refine not_congr ⟨?_, ?_⟩
  · rintro rfl
    exact equals_none_iff.1 equals
  · rintro rfl
    exact equals_none_right_iff.1 equals

lemma Encoding.message_congr (alike : p.serialize v = p.serialize w) (group : Bool) :
    message p group number v = message p group number w := by
  rw [message, message, alike]

variable (plain : R.Plain) (asymm : ∀ k l, order k l → ¬order l k) (canonical : ∀ v, Q v → v.Canonical order)
  (inner : I.Equates p chains Q) (alike : I.Alike p Q)

include inner alike

lemma MessagesFit.forall₂_serialize {group : Bool} {as bs : List Value}
    (fits : MessagesFit R I group t (.list as)) (fits' : MessagesFit R I group t (.list bs))
    (every : (Value.list as).Every Q) (every' : (Value.list bs).Every Q)
    (equals : Equals p (.list as) (.list bs)) :
    Forall₂ (fun x y => p.serialize x = p.serialize y) as bs := by
  obtain ⟨_, ⟨rfl⟩, all⟩ := fits
  obtain ⟨_, ⟨rfl⟩, all'⟩ := fits'
  have here : ∀ x ∈ as, I.nested t x ∧ x.Every Q := fun x member =>
    ⟨(all x member).1, (Value.every_list.1 every).2 x member⟩
  have there : ∀ x ∈ bs, I.nested t x ∧ x.Every Q := fun x member =>
    ⟨(all' x member).1, (Value.every_list.1 every').2 x member⟩
  rw [equals_list_iff fun x member y member' isSame =>
    (inner.nested t).same (here x member) (there y member') isSame ▸ (inner.nested t).refl (here x member)] at equals
  clear all all' every every'
  induction equals with
  | nil => exact .nil
  | cons first _ ih =>
    refine .cons (alike.nested t _ _ (here _ (.head _)) (there _ (.head _)) first) ?_
    exact ih (fun x later => here x (.tail _ later)) fun x later =>
      there x (.tail _ later)

include plain asymm canonical

lemma encoding_map_of_equals (number : Int) {key value : FieldType} {ref : Option ClassRef}
    (fits : (FieldKind.map key value ref).Fits R I (.map false as))
    (fits' : (FieldKind.map key value ref).Fits R I (.map false bs)) (every : (Value.map false as).Every Q)
    (every' : (Value.map false bs).Every Q) (equals : Equals p (.map false as) (.map false bs)) :
    Forall₂ (fun a b => Encoding.entry p number key value ref.isSome a
      = Encoding.entry p number key value ref.isSome b) as bs := by
  obtain ⟨_, ⟨rfl⟩, -, distinct, all⟩ := fits
  obtain ⟨_, ⟨rfl⟩, -, distinct', all'⟩ := fits'
  have keys := keys_of_fits plain all
  have keys' := keys_of_fits plain all'
  have here := (Value.every_map.1 every).2
  have there := (Value.every_map.1 every').2
  -- The values under a key are compared and encoded as scalars or as messages.
  have value : ∀ a ∈ as, ∀ b ∈ bs, (a.2.isSame b.2 = true → Equals p a.2 b.2)
      ∧ (Equals p a.2 b.2 → Encoding.entryValue p value ref.isSome a.2 = Encoding.entryValue p value ref.isSome b.2) := by
    intro a member b member'
    obtain ⟨-, valueFits, -⟩ := all a member
    obtain ⟨-, valueFits', -⟩ := all' b member'
    cases ref with
    | none =>
      have scalars : Equates p chains (R.Holds value) := equates_scalar plain value
      refine ⟨fun isSame => scalars.same valueFits valueFits' isSame ▸ scalars.refl valueFits, fun equals => ?_⟩
      rw [valueFits.eq_of_equals plain valueFits' (canonical _ (here a member).here)
        (canonical _ (there b member').here) equals]
    | some ref =>
      have messages := inner.entry ref.target
      have one := And.intro valueFits.1 (here a member)
      have other := And.intro valueFits'.1 (there b member')
      refine ⟨fun isSame => messages.same one other isSame ▸ messages.refl one, fun equals => ?_⟩
      exact Encoding.message_congr (alike.entry ref.target _ _ one other equals) false
  rw [equals_map_iff keys keys' distinct distinct' fun a member b member' =>
    (value a member b member').1] at equals
  have pairs := forall₂_of_ordered asymm keys keys' (canonical _ every.here) (canonical _ every'.here) equals
  clear equals all all' keys keys' distinct distinct' every every' here there
  induction pairs with
  | nil => exact .nil
  | @cons a b _ _ first _ ih =>
    refine .cons ?_ (ih fun x later y later' => value x (.tail _ later) y (.tail _ later'))
    obtain ⟨k, x⟩ := a
    obtain ⟨k', y⟩ := b
    obtain ⟨rfl, equals⟩ := first
    rw [Encoding.entry, Encoding.entry, Encoding.keyValue_congr ((value _ (.head _) _ (.head _)).2 equals)]

/-- **Fields** that are equal are present and encoded alike. -/
lemma encoding_of_equals (number : Int) {kind : FieldKind} (fits : kind.Fits R I v) (fits' : kind.Fits R I w) (every : v.Every Q)
    (every' : w.Every Q) (equals : Equals p v w) :
    kind.isPresent v = kind.isPresent w ∧ kind.encoding p number v = kind.encoding p number w := by
  have present := isPresent_of_equals equals
  cases kind with
  | scalar =>
    suffices same : v = w by rw [same]; exact ⟨rfl, rfl⟩
    rcases fits with ⟨-, rfl⟩ | holds
    · exact (equals_none_iff.1 equals).symm
    · rcases fits' with ⟨-, rfl⟩ | holds'
      · exact equals_none_right_iff.1 equals
      · exact holds.eq_of_equals plain holds' (canonical _ every.here) (canonical _ every'.here) equals
  | repeated =>
    rw [ScalarsFit.eq_of_equals plain fits fits' (every.imp canonical) (every'.imp canonical) equals]
    exact ⟨rfl, rfl⟩
  | message group ref =>
    refine ⟨present, ?_⟩
    rcases fits with rfl | fits
    · rw [equals_none_iff.1 equals]
    · rcases fits' with rfl | fits'
      · rw [equals_none_right_iff.1 equals]
      · exact Encoding.message_congr (alike.nested ref.target v w ⟨fits.1, every⟩ ⟨fits'.1, every'⟩ equals) group
  | repeatedMessage group =>
    obtain ⟨as, rfl, -⟩ := id fits
    obtain ⟨bs, rfl, -⟩ := id fits'
    have each := MessagesFit.forall₂_serialize inner alike fits fits' every every' equals
    refine ⟨?_, Encoding.all_congr (each.imp fun x y same => Encoding.message_congr same group)⟩
    cases each <;> rfl
  | map =>
    obtain ⟨as, rfl, -⟩ := id fits
    obtain ⟨bs, rfl, -⟩ := id fits'
    have each := encoding_map_of_equals plain asymm canonical inner alike number fits fits' every every' equals
    refine ⟨?_, Encoding.all_congr each⟩
    cases each <;> rfl

omit asymm inner in
lemma encoding_member_of_equals {kind : MemberKind} (fits : kind.Fits R I v) (fits' : kind.Fits R I w)
    (every : v.Every Q) (every' : w.Every Q) (equals : Equals p v w) :
    kind.encoding p number v = kind.encoding p number w := by
  cases kind with
  | scalar =>
    rw [Rules.Holds.eq_of_equals plain fits fits' (canonical _ every.here) (canonical _ every'.here) equals]
  | message group ref =>
    exact Encoding.message_congr (alike.nested ref.target v w ⟨fits.1, every⟩ ⟨fits'.1, every'⟩ equals) group
  | entry => exact fits.elim

lemma encoding_extension_of_equals {e : Extension} (fits : e.Fits R I v) (fits' : e.Fits R I w)
    (every : v.Every Q) (every' : w.Every Q) (equals : Equals p v w) : e.encoding p v = e.encoding p w := by
  rw [e.encoding_eq, e.encoding_eq]
  exact (encoding_of_equals plain asymm canonical inner alike e.number (fits.kind p) (fits'.kind p) every every'
    equals).2

end fields

section message

variable {chains : Prop} {n : Nat} {c : ClassPlan} {s : Message} {a b : Content} (found : p.plan? t = some c)
  (planned : Planned p.arena s c) (regular : p.arena.Regular) (comparable : p.Comparable)
  (contents : ContentsEquate p chains Q content) (chain : chains) (one : a.Sits p R content Q n t c)
  (other : b.Sits p R content Q n t c) (agrees : a.Agrees p c b)

include found planned regular comparable contents chain one other agrees

/-- What is read from a slot of two messages that agree is equal. -/
lemma Content.Agrees.exists_reads {i : Nat} {plan : SlotPlan} (slot : c.slots[i]? = some plan) :
    ∃ v w, a.read p c i = .ok v ∧ b.read p c i = .ok w ∧ (v = w ∨ (plan.Fits R (inside p R content n) t i v ∧ v.Every Q)
        ∧ (plan.Fits R (inside p R content n) t i w ∧ w.Every Q) ∧ Equals p v w) := by
  cases isAny : c.isAny with
  | false =>
    have room : i < c.slots.length := (List.getElem?_eq_some_iff.1 slot).1
    refine ⟨a.slot i, b.slot i, by rw [Content.read, place_plain isAny], by rw [Content.read, place_plain isAny],
      .inr ⟨⟨one.1.slots isAny i plan slot, one.2.slot ?_⟩, ⟨other.1.slots isAny i plan slot, other.2.slot ?_⟩,
        agrees.slots isAny i⟩⟩
    · rwa [one.1.length isAny]
    · rwa [other.1.length isAny]
  | true =>
    obtain ⟨url, bytes, written⟩ := one.exists_written contents found chain isAny
    obtain ⟨url', bytes', written'⟩ := other.exists_written contents found chain isAny
    obtain ⟨rfl, rfl⟩ := (written.slotsEqual_iff comparable (contents.settles chain) written').1 (agrees.any isAny)
    obtain ⟨first, second, -⟩ := planned.place_any regular isAny
    obtain ⟨urlPlan, valuePlan, declared, -⟩ := planned.any_declared regular isAny
    rw [planned.slots, declared] at slot
    rcases i with _ | _ | i
    · obtain ⟨data, x, shape, -⟩ := written.slots
      obtain ⟨data', x', shape', -⟩ := written'.slots
      refine ⟨.text url, .text url, ?_, ?_, .inl rfl⟩
      · simp [Content.read, first, Content.slot, shape]
      · simp [Content.read, first, Content.slot, shape']
    · refine ⟨.bytes bytes, .bytes bytes, ?_, ?_, .inl rfl⟩
      · rw [Content.read, second, written.known]
      · rw [Content.read, second, written'.known]
    · simp [slotsOf] at slot

variable (plain : R.Plain) (resolved : s.Resolved) (asymm : ∀ k l, order k l → ¬order l k)
  (canonical : ∀ v, Q v → v.Canonical order) (inner : (inside p R content n).Equates p chains Q)
  (alike : (inside p R content n).Alike p Q)

include plain resolved asymm canonical inner alike

/-- Messages that agree carry the same. -/
lemma Content.Agrees.carries {number : Int} {result : Except Fault Bytes} (carries : Carries p c a number result) :
    Carries p c b number result := by
  cases carries with
  | @field slot f v declared read present =>
    obtain ⟨v', w, read', there, related⟩ := agrees.exists_reads found planned regular comparable contents chain one
      other (planned.slot_of_declared resolved declared)
    cases read.symm.trans read'
    rcases related with rfl | ⟨⟨fits, every⟩, ⟨fits', every'⟩, equals⟩
    · exact .field declared there present
    · obtain ⟨samePresence, sameEncoding⟩ := encoding_of_equals plain asymm canonical inner alike f.number fits fits'
        every every' equals
      rw [sameEncoding]
      exact .field declared there (samePresence ▸ present)
  | @member slot o member first tag x loose declared read active =>
    obtain ⟨v', w, read', there, related⟩ := agrees.exists_reads found planned regular comparable contents chain one
      other (planned.slot_of_declared resolved declared)
    cases read.symm.trans read'
    rcases related with rfl | ⟨⟨fits, every⟩, ⟨fits', every'⟩, equals⟩
    · exact .member declared there active
    · rcases fits with impossible | ⟨k, member', origin, x', isCase, isMember, fits⟩
      · cases impossible
      · obtain ⟨rfl, rfl, rfl⟩ := Value.case.inj isCase
        obtain rfl : k = member.number := by simpa using active
        rcases fits' with rfl | ⟨k', member'', origin', y, rfl, isMember', fits'⟩
        · cases equals_none_right_iff.1 equals
        · obtain ⟨⟨-, -, sameNumber⟩, sameValue⟩ := equals_case_iff.1 equals
          obtain rfl : member.number = k' := by simpa [Scalar.equal, Scalar.int?] using sameNumber
          obtain ⟨-, -, -, -, isDeclared⟩ := planned.oneof_of_member declared
          cases isMember.symm.trans isDeclared
          cases isMember'.symm.trans isDeclared
          rw [encoding_member_of_equals plain canonical alike fits fits' (Value.every_case.1 every).2
            (Value.every_case.1 every').2 sameValue]
          exact .member declared there rfl
  | @extension e v set =>
    obtain ⟨y, there, sameExtension, equals⟩ := agrees.extensions.exists_of_mem set
    obtain ⟨e', y⟩ := y
    obtain rfl : e = e' := sameExtension
    rw [encoding_extension_of_equals plain asymm canonical inner alike (one.1.extensions _ set).2.2.2
      (other.1.extensions _ there).2.2.2 (one.2.extension set) (other.2.extension there) equals]
    exact .extension there

/-- **One level.**  Messages that agree are written alike. -/
lemma Content.Agrees.serialize_eq (sources : ∀ v, Q v → v.From w) (encodable : R.Encodable)
    (spelled : (inside p R content n).Spelled p R) : p.serialize a.value = p.serialize b.value := by
  have back : b.Agrees p c a := agrees.symm plain comparable sources contents inner one other
  have carries : ∀ number result, Carries p c a number result ↔ Carries p c b number result := fun number result =>
    ⟨agrees.carries found planned regular comparable contents chain one other plain resolved asymm canonical inner alike,
      back.carries found planned regular comparable contents chain other one plain resolved asymm canonical inner alike⟩
  obtain ⟨encodings, ascending, carried, spells⟩ :=
    one.1.exists_encodings found planned resolved regular encodable spelled
  obtain ⟨encodings', ascending', carried', spells'⟩ :=
    other.1.exists_encodings found planned resolved regular encodable spelled
  have members : ∀ x, x ∈ encodings ↔ x ∈ encodings' := by
    intro x
    have here := carried x.1 (.ok x.2)
    rw [carries, carried' x.1 (.ok x.2)] at here
    simpa using here.symm
  rw [spells.serialize, spells'.serialize, eq_of_ascending ascending ascending' members, agrees.unknown]

end message

lemma Program.shared_of_build (built : Program.build files options = .ok p) {c : ClassPlan}
    (found : p.plan? t = some c) :
    c.isAny = true → c.isIndirected = true := by
  obtain ⟨-, s, -, planned⟩ := planned_of_build built found
  exact planned.shared

section levels

variable {chains : Prop} (built : Program.build files options = .ok p) (regular : p.arena.Regular)
  (comparable : p.Comparable) (plain : R.Plain) (encodable : R.Encodable)
  (asymm : ∀ k l, order k l → ¬order l k) (canonical : ∀ v, Q v → v.Canonical order)
  (sources : ∀ v, Q v → v.From w) (contents : ContentsEquate p chains Q content) (chain : chains)
  (spelt : ∀ v, content v → ∃ bytes, p.Spells v bytes ∧ R.scalar .bytes (.bytes bytes))

include built regular comparable plain encodable asymm canonical sources contents chain spelt

/-- **Equal messages are written alike.** -/
lemma serialize_of_equals {n : Nat} {u : Value} (one : Typed p R content n t u ∧ u.Every Q)
    (other : Typed p R content n t v ∧ v.Every Q) (equals : Equals p u v) :
    p.serialize u = p.serialize v := by
  have equates := equates_typed plain comparable (shared_of_build built) sources contents
  have below : ∀ {k t v}, Typed p R content k t v → ∃ bytes, p.Spells v bytes := fun typed =>
    typed.exists_spells built regular encodable spelt
  induction n using Nat.strong_induction_on generalizing t u v with
  | _ n ih =>
    have alike : (inside p R content n).Alike p Q := by
      constructor <;>
      · rintro t u v ⟨⟨k, rfl, typed⟩, every⟩ ⟨⟨k', same, typed'⟩, every'⟩ equals
        obtain rfl : k = k' := by omega
        exact ih k (by omega) ⟨typed, every⟩ ⟨typed', every'⟩ equals
    have inner := equates_inside plain fun k (_ : k < n) t => equates k t
    obtain ⟨typed, every⟩ := one
    obtain ⟨typed', every'⟩ := other
    rw [typed_eq] at typed typed'
    obtain ⟨c, a, found, rfl, fits⟩ := typed
    obtain ⟨c', b, found', rfl, fits'⟩ := typed'
    cases found.symm.trans found'
    obtain ⟨-, s, resolved, planned⟩ := planned_of_build built found
    have agrees : a.Agrees p c b := (Content.Sits.equals_iff plain comparable (shared_of_build built) sources contents
      found ⟨fits, every⟩ ⟨fits', every'⟩).1 equals
    exact agrees.serialize_eq found planned regular comparable contents chain ⟨fits, every⟩ ⟨fits', every'⟩ plain
      resolved asymm canonical inner alike sources encodable
      (spelled_inside (fun k _ t v typed => below typed) spelt)

end levels

/-! ## Packed messages -/

/-- Scalars that can be read back are of the type of their field. -/
lemma Rules.plain_readable : (Rules.readable p table).Plain := by
  rintro type s ⟨holds, number, -⟩
  refine ⟨?_, number⟩
  cases s with
  | none => exact holds.elim
  | bool =>
    obtain rfl : type = .bool := holds
    rfl
  | int =>
    obtain ⟨low, high, bounds, -, -⟩ := holds
    cases type <;> simp [FieldType.bounds?] at bounds <;> rfl
  | float => rcases holds with rfl | ⟨rfl, -⟩ <;> rfl
  | text =>
    obtain rfl : type = .string := holds
    rfl
  | bytes =>
    obtain rfl : type = .bytes := holds
    rfl

/-- What a message may hold as any other one, if equality is to be transitive: a message that can be read back, with
its values in canonical form, which may hold others in turn. -/
def Packed (p : Program) (table : Option ExtensionTable) (order : Key → Key → Prop) : Nat → Value → Prop
  | 0, _ => False
  | k + 1, v => (∃ t, Typed p (.readable p table) (Packed p table order k) maxDepth t v)
    ∧ (∀ bytes, p.serialize v = .ok bytes → bytes.length < word64) ∧ v.Every (Value.Canonical order)

/-- A value that is what it was read from, and knows no other bytes of contents than they are written as. -/
def Value.Sincere (w : Sources) (p : Program) (v : Value) : Prop := v.From w ∧ v.Cached p

lemma Value.IsNew.sincere (new : v.IsNew p) : v.Sincere w p := by
  cases v with
  | message =>
    refine ⟨fun o origin => ?_, fun c isPlan isAny url data content shape => .inl ?_⟩
    · rw [new.1] at origin
      cases origin
    · have unset := new.2 c isPlan isAny
      rw [shape] at unset
      exact Option.some.inj unset
  | case tag =>
    refine ⟨fun o origin => ?_, trivial⟩
    have unset : tag.origin = Option.none := new
    rw [unset] at origin
    cases origin
  | _ => exact ⟨trivial, trivial⟩

section packed

variable (built : Program.build files options = .ok p) (ready : p.Ready table) (comparable : p.Comparable)
  (valid : p.Valid) (asymm : ∀ k l, order k l → ¬order l k)

lemma Packed.exists_spells (built : Program.build files options = .ok p) (regular : p.arena.Regular) {k : Nat}
    (packed : Packed p table order k v) :
    ∃ bytes, p.Spells v bytes ∧ (Rules.readable p table).scalar .bytes (.bytes bytes) := by
  induction k generalizing v with
  | zero => exact packed.elim
  | succ k ih =>
    obtain ⟨⟨t, typed⟩, small, -⟩ := packed
    obtain ⟨bytes, spells⟩ := typed.exists_spells built regular Rules.encodable_readable fun _ => ih
    exact ⟨bytes, spells, rfl, rfl, small bytes spells.serialize⟩

include built ready comparable valid

/-- **Messages that are written alike are equal.**  They are read back as one message. -/
lemma equals_of_serialize (contents : ContentsEquate p True (Value.Sincere w p) content)
    (spelt : ∀ v, content v → ∃ bytes, p.Spells v bytes ∧ (Rules.readable p table).scalar .bytes (.bytes bytes))
    {u : Value} (one : Typed p (.readable p table) content maxDepth t u ∧ u.Every (Value.Sincere w p))
    (other : Typed p (.readable p table) content maxDepth t v ∧ v.Every (Value.Sincere w p))
    (alike : p.serialize u = p.serialize v) : Equals p u v := by
  obtain ⟨bytes, m, written, parsed, echo⟩ := one.1.exists_parse built ready Rules.legible_readable valid
    (fun _ => comparable) spelt (Nat.le_refl _)
  obtain ⟨bytes', m', written', parsed', echo'⟩ :=
    other.1.exists_parse built ready Rules.legible_readable valid (fun _ => comparable) spelt (Nat.le_refl _)
  cases written.symm.trans (alike.trans written')
  cases parsed.symm.trans parsed'
  have between : Typed p (.readable p table) content maxDepth t m.value ∧ m.value.Every (Value.Sincere w p) :=
    ⟨echo.fits, echo.new.imp fun v new => new.sincere⟩
  exact (equates_typed Rules.plain_readable comparable (shared_of_build built) (fun v => And.left) contents
    maxDepth t).trans trivial one between other (echo.same (.inl Rules.numeric_readable)).2
    (echo'.same (.inl Rules.numeric_readable)).1

include asymm

/-- **Packed messages** are equal if they are written alike. -/
lemma contentsEquate_packed (k : Nat) : ContentsEquate p True (Value.Sincere w p) (Packed p table order k) := by
  induction k with
  | zero =>
    exact ⟨fun v => False.elim, fun v => False.elim, fun v v' one => one.1.elim,
      fun _ => ⟨fun one => one.1.elim, fun one => one.1.elim, fun one => one.1.elim⟩, fun _ v => And.right⟩
  | succ k ih =>
    have spelt : ∀ v, Packed p table order k v →
        ∃ bytes, p.Spells v bytes ∧ (Rules.readable p table).scalar .bytes (.bytes bytes) := fun v packed =>
      packed.exists_spells built ready.regular
    have shared := fun {t c} => shared_of_build built (t := t) (c := c)
    refine ⟨?_, ?_, ?_, fun _ => ⟨?_, ?_, ?_⟩, fun _ v => And.right⟩
    · rintro v ⟨⟨t, typed⟩, -⟩
      exact typed.isMessage
    · rintro v ⟨⟨t, typed⟩, -⟩
      exact typed.itself Rules.plain_readable comparable shared ih
    · rintro v v' ⟨⟨typed, -⟩, every⟩ ⟨⟨typed', -⟩, every'⟩ equals
      exact (equates_classes Rules.plain_readable comparable shared (fun v => And.left) ih maxDepth).symm
        ⟨typed, every⟩ ⟨typed', every'⟩ equals
    · rintro v ⟨⟨⟨t, typed⟩, -⟩, -⟩
      exact typed.isMessage
    · rintro v ⟨packed, -⟩
      obtain ⟨bytes, spells, -⟩ := packed.exists_spells built ready.regular
      exact ⟨bytes, spells.serialize⟩
    · rintro v v' ⟨⟨⟨t, typed⟩, -, canonical⟩, every⟩ ⟨⟨⟨t', typed'⟩, -, canonical'⟩, every'⟩ sameClass
      obtain rfl : t = t' := by
        rw [typed.type?_eq, typed'.type?_eq] at sameClass
        exact Option.some.inj sameClass
      constructor
      · exact serialize_of_equals built ready.regular comparable Rules.plain_readable Rules.encodable_readable asymm
          (fun v => And.right) (fun v one => one.1.1) (ih.mono fun v => And.left) trivial spelt
          ⟨typed, fun x within => ⟨every x within, canonical x within⟩⟩
          ⟨typed', fun x within => ⟨every' x within, canonical' x within⟩⟩
      · exact equals_of_serialize built ready comparable valid ih spelt ⟨typed, every⟩ ⟨typed', every'⟩

end packed

end Missive
