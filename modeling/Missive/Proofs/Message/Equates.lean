import Missive.Proofs.Message.Compare

/-!
# Equality of values of a kind

On the values that fit in a place, equality is reflexive and symmetric, and it is transitive wherever it is on the
messages inside (`Equates`).  This goes along the values: from scalars to lists, maps and cases, to slots and
extensions, and to messages.
-/

namespace Missive

open Plan List

variable {n : Nat} {v : Value} {t : TypeId} {S : Value → Prop}

/-- Equality on some values: those from one place are the same, and it is reflexive and symmetric.  It is transitive
if it is asked to chain. -/
structure Equates (p : Program) (chains : Prop) (S : Value → Prop) : Prop where
  same : ∀ {v w : Value}, S v → S w → v.isSame w = true → v = w
  refl : ∀ {v : Value}, S v → Equals p v v
  symm : ∀ {v w : Value}, S v → S w → Equals p v w → Equals p w v
  trans : chains → ∀ {u v w : Value}, S u → S v → S w → Equals p u v → Equals p v w → Equals p u w

section containers

variable {p : Program} {chains : Prop} {S' : Value → Prop}

lemma Equates.mono (equates : Equates p chains S) (weaker : ∀ v, S' v → S v) : Equates p chains S' where
  same := fun here there => equates.same (weaker _ here) (weaker _ there)
  refl := fun here => equates.refl (weaker _ here)
  symm := fun here there => equates.symm (weaker _ here) (weaker _ there)
  trans := fun chain _ _ _ one two three => equates.trans chain (weaker _ one) (weaker _ two) (weaker _ three)

lemma equates_scalar {R : Rules} (plain : R.Plain) (type : FieldType) : Equates p chains (R.Holds type) := by
  constructor
  · rintro _ _ ⟨s, rfl, -⟩ - isSame
    simp [Value.isSame] at isSame
  · intro v holds
    exact (holds.same_self plain.numeric).1
  · rintro _ _ ⟨s, rfl, -⟩ ⟨s', rfl, -⟩ equals
    rw [equals_scalar_iff] at equals ⊢
    rw [Scalar.equal_comm, equals]
  · rintro - _ _ _ ⟨a, rfl, one⟩ ⟨b, rfl, two⟩ ⟨c, rfl, three⟩ first second
    rw [equals_scalar_iff] at first second ⊢
    exact Scalar.equal_trans (plain type a one).1 (plain type b two).1 (plain type c three).1 first second

lemma Equates.optional (equates : Equates p chains S) : Equates p chains fun v => v = .none ∨ S v := by
  constructor
  · rintro v w (rfl | here) (rfl | there) isSame
    · rfl
    · simp [Value.isSame] at isSame
    · cases v <;> simp [Value.isSame] at isSame
    · exact equates.same here there isSame
  · rintro v (rfl | here)
    · exact equals_none_iff.2 rfl
    · exact equates.refl here
  · rintro v w (rfl | here) (rfl | there) equals
    · exact equals
    · exact equals_none_right_iff.2 (equals_none_iff.1 equals)
    · exact equals_none_iff.2 (equals_none_right_iff.1 equals)
    · exact equates.symm here there equals
  · rintro chain u v w one two three first second
    by_cases unset : v = .none
    · subst unset
      rw [equals_none_right_iff.1 first]
      exact second
    · have set : u ≠ .none := by
        rintro rfl
        exact unset (equals_none_iff.1 first)
      have set' : w ≠ .none := by
        rintro rfl
        exact unset (equals_none_right_iff.1 second)
      exact equates.trans chain (one.resolve_left set) (two.resolve_left unset) (three.resolve_left set') first second

lemma Equates.list (equates : Equates p chains S) :
    Equates p chains fun v => ∃ items, v = .list items ∧ ∀ x ∈ items, S x := by
  have iff : ∀ {as bs : List Value}, (∀ x ∈ as, S x) → (∀ x ∈ bs, S x) →
      (Equals p (.list as) (.list bs) ↔ Forall₂ (Equals p) as bs) := fun all all' =>
    equals_list_iff fun a here b there isSame =>
      equates.same (all a here) (all' b there) isSame ▸ equates.refl (all a here)
  constructor
  · rintro _ _ ⟨as, rfl, -⟩ - isSame
    simp [Value.isSame] at isSame
  · rintro _ ⟨as, rfl, all⟩
    rw [iff all all]
    exact forall₂_same.2 fun x member => equates.refl (all x member)
  · rintro _ _ ⟨as, rfl, all⟩ ⟨bs, rfl, all'⟩ equals
    rw [iff all all'] at equals
    rw [iff all' all]
    induction equals with
    | nil => exact .nil
    | cons first _ ih =>
      refine .cons (equates.symm (all _ (.head _)) (all' _ (.head _)) first) ?_
      exact ih (fun x later => all x (.tail _ later)) fun x later =>
        all' x (.tail _ later)
  · rintro chain _ _ _ ⟨as, rfl, all⟩ ⟨bs, rfl, all'⟩ ⟨cs, rfl, all''⟩ first second
    rw [iff all all'] at first
    rw [iff all' all''] at second
    rw [iff all all'']
    induction first generalizing cs with
    | nil =>
      cases second
      exact .nil
    | cons first _ ih =>
      cases second with
      | cons second rest =>
        refine .cons (equates.trans chain (all _ (.head _)) (all' _ (.head _)) (all'' _ (.head _)) first second) ?_
        exact ih (fun x later => all x (.tail _ later)) (fun x later => all' x (.tail _ later)) _
          (fun x later => all'' x (.tail _ later)) rest

/-- Entries with keys of a type, no two of which are equal. -/
structure EntriesOf (key : FieldType) (S : Value → Prop) (entries : List (Key × Value)) : Prop where
  keys : key.Keys entries
  distinct : entries.Pairwise fun a b => a.1.equal b.1 = false
  values : ∀ e ∈ entries, S e.2

lemma Equates.map (equates : Equates p chains S) (key : FieldType) :
    Equates p chains fun v => ∃ entries, v = .map false entries ∧ EntriesOf key S entries := by
  have iff : ∀ {as bs : List (Key × Value)}, EntriesOf key S as → EntriesOf key S bs →
      (Equals p (.map false as) (.map false bs)
        ↔ Pairable (fun a b => b.1.equal a.1 = true ∧ Equals p a.2 b.2) as bs) := fun one other =>
    equals_map_iff one.keys other.keys one.distinct other.distinct fun a here b there isSame =>
      equates.same (one.values a here) (other.values b there) isSame ▸ equates.refl (one.values a here)
  constructor
  · rintro _ _ ⟨as, rfl, -⟩ - isSame
    simp [Value.isSame] at isSame
  · rintro _ ⟨as, rfl, fits⟩
    rw [iff fits fits]
    refine ⟨as, forall₂_same.2 fun e member => ⟨?_, equates.refl (fits.values e member)⟩, .refl _⟩
    obtain ⟨s, isKey, -, number⟩ := fits.keys e member
    rw [isKey, Key.equal]
    exact Scalar.equal_self number
  · rintro _ _ ⟨as, rfl, one⟩ ⟨bs, rfl, other⟩ equals
    rw [iff one other] at equals
    rw [iff other one]
    refine equals.flip.imp fun b there a here pair => ⟨?_, ?_⟩
    · exact (one.keys.equal_comm other.keys here there).trans pair.1
    · exact equates.symm (one.values a here) (other.values b there) pair.2
  · rintro chain _ _ _ ⟨as, rfl, one⟩ ⟨bs, rfl, two⟩ ⟨cs, rfl, three⟩ first second
    rw [iff one two] at first
    rw [iff two three] at second
    rw [iff one three]
    refine (first.trans second).imp ?_
    rintro a here c there ⟨b, between, pair, pair'⟩
    constructor
    · exact three.keys.equal_trans two.keys one.keys there between here pair'.1 pair.1
    · exact equates.trans chain (one.values a here) (two.values b between) (three.values c there) pair.2 pair'.2

/-- Cases of a oneof are equal if they are of one member and have equal values. -/
lemma equates_case {T : Int → Value → Prop} (equates : ∀ number, Equates p chains (T number)) (w : Sources)
    (owner : TypeId) (slot : Nat) :
    Equates p chains fun v => (∃ number origin x, v = .case { owner, slot, number := .int number, origin } x []
      ∧ T number x) ∧ v.From w := by
  have iff : ∀ {number number' : Int} {origin origin' : Option Nat} {x y : Value},
      Equals p (.case { owner, slot, number := .int number, origin } x [])
        (.case { owner, slot, number := .int number', origin := origin' } y []) ↔ number = number' ∧ Equals p x y := by
    intro number number' origin origin' x y
    simp [equals_case_iff, Scalar.equal, Scalar.int?]
  constructor
  · rintro v v' ⟨-, here⟩ ⟨-, there⟩ isSame
    exact here.eq_of_isSame there isSame
  · rintro _ ⟨⟨number, origin, x, rfl, fits⟩, -⟩
    exact iff.2 ⟨rfl, (equates number).refl fits⟩
  · rintro _ _ ⟨⟨number, origin, x, rfl, fits⟩, -⟩ ⟨⟨number', origin', y, rfl, fits'⟩, -⟩ equals
    obtain ⟨rfl, inside⟩ := iff.1 equals
    exact iff.2 ⟨rfl, (equates number).symm fits fits' inside⟩
  · rintro chain _ _ _ ⟨⟨number, origin, x, rfl, fits⟩, -⟩ ⟨⟨number', origin', y, rfl, fits'⟩, -⟩
      ⟨⟨number'', origin'', z, rfl, fits''⟩, -⟩ first second
    obtain ⟨rfl, inside⟩ := iff.1 first
    obtain ⟨rfl, inside'⟩ := iff.1 second
    exact iff.2 ⟨rfl, (equates number).trans chain fits fits' fits'' inside inside'⟩

end containers

/-! ## Fields -/

/-- Equality on the messages inside a message, all parts of which are as a predicate says. -/
structure Inside.Equates (p : Program) (chains : Prop) (P : Value → Prop) (I : Inside) : Prop where
  nested : ∀ t, Missive.Equates p chains fun v => I.nested t v ∧ v.Every P
  entry : ∀ t, Missive.Equates p chains fun v => I.entry t v ∧ v.Every P

section fields

variable {p : Program} {chains : Prop} {P : Value → Prop} {R : Rules} {I : Inside} {w : Sources}
  (plain : R.Plain) (inner : I.Equates p chains P)

include plain in
lemma equates_scalars (type : FieldType) (packed : Bool) : Equates p chains (ScalarsFit R type packed) := by
  refine (equates_scalar plain type).list.mono ?_
  rintro v ⟨items, isList, all, -⟩
  exact ⟨items, isList, all⟩

include inner

lemma equates_messages (group : Bool) (t : TypeId) : Equates p chains fun v => MessagesFit R I group t v ∧ v.Every P := by
  refine (inner.nested t).list.mono ?_
  rintro _ ⟨⟨items, rfl, all⟩, every⟩
  exact ⟨items, rfl, fun x member => ⟨(all x member).1, (Value.every_list.1 every).2 x member⟩⟩

include plain

omit inner in
lemma keys_of_fits {key value : FieldType} {ref : Option ClassRef} {entries : List (Key × Value)}
    (all : ∀ e ∈ entries, EntryFits R I key value ref e) : key.Keys entries := by
  intro e member
  obtain ⟨⟨s, isKey, holds⟩, -, -⟩ := all e member
  exact ⟨s, isKey, plain key s holds⟩

lemma equates_field (kind : FieldKind) : Equates p chains fun v => kind.Fits R I v ∧ v.Every P := by
  cases kind with
  | scalar type =>
    exact (equates_scalar plain type).optional.mono fun v fits => fits.1.imp And.right id
  | repeated type packed => exact (equates_scalars plain type packed).mono fun v => And.left
  | message group ref =>
    refine (inner.nested ref.target).optional.mono ?_
    rintro v ⟨rfl | fits, every⟩
    · exact .inl rfl
    · exact .inr ⟨fits.1, every⟩
  | repeatedMessage group ref => exact equates_messages inner group ref.target
  | map key value ref =>
    cases ref with
    | none =>
      refine ((equates_scalar plain value).map key).mono ?_
      rintro _ ⟨⟨entries, rfl, -, distinct, all⟩, -⟩
      exact ⟨entries, rfl, keys_of_fits plain all, distinct, fun e member => (all e member).2.1⟩
    | some ref =>
      refine ((inner.entry ref.target).map key).mono ?_
      rintro _ ⟨⟨entries, rfl, -, distinct, all⟩, every⟩
      exact ⟨entries, rfl, keys_of_fits plain all, distinct, fun e member =>
        ⟨(all e member).2.1.1, (Value.every_map.1 every).2 e member⟩⟩

lemma equates_member (kind : MemberKind) : Equates p chains fun v => kind.Fits R I v ∧ v.Every P := by
  cases kind with
  | scalar type => exact (equates_scalar plain type).mono fun v => And.left
  | message group ref => exact (inner.nested ref.target).mono fun v fits => ⟨fits.1.1, fits.2⟩
  | entry => exact (equates_scalar plain .bool).mono fun v fits => fits.1.elim

lemma equates_slot (sources : ∀ v, P v → v.From w) (plan : SlotPlan) (t : TypeId) (i : Nat) :
    Equates p chains fun v => plan.Fits R I t i v ∧ v.Every P := by
  cases plan with
  | field f => exact equates_field plain inner f.kind
  | oneof o =>
    have members : ∀ number, Equates p chains fun v =>
        (∃ member, o.member? number = some member ∧ member.kind.Fits R I v) ∧ v.Every P := by
      intro number
      cases found : o.member? number with
      | none =>
        refine (equates_scalar plain .bool).mono ?_
        rintro v ⟨⟨member, ⟨⟩, -⟩, -⟩
      | some member =>
        refine (equates_member plain inner member.kind).mono ?_
        rintro v ⟨⟨_, ⟨rfl⟩, fits⟩, every⟩
        exact ⟨fits, every⟩
    refine (equates_case members w t i).optional.mono ?_
    rintro v ⟨rfl | ⟨number, member, origin, x, rfl, found, fits⟩, every⟩
    · exact .inl rfl
    · exact .inr ⟨⟨number, origin, x, rfl, ⟨member, found, fits⟩, (Value.every_case.1 every).2⟩, sources _ every.here⟩

lemma equates_extension (e : Extension) : Equates p chains fun v => e.Fits R I v ∧ v.Every P :=
  (equates_field plain inner (e.kind p)).mono fun _ fits => fits.imp (·.kind p) id

end fields

/-! ## Messages that hold any other one -/

/-- The bytes of a content that are known are those that it is written as. -/
def Value.Cached (p : Program) : Value → Prop
  | .message head slots _ _ => ∀ c ∈ p.plan? head.type, c.isAny = true →
    ∀ url data content, slots = [.text url, .bytes data, content] → content = .none ∨ p.serialize content = .ok data
  | _ => True

/-- Messages that can be written, and that are equal if they are of one class and written alike. -/
structure Settles (p : Program) (S : Value → Prop) : Prop where
  message : ∀ {v : Value}, S v → v.type?.isSome = true
  written : ∀ {v : Value}, S v → ∃ bytes, p.serialize v = .ok bytes
  equals_iff : ∀ {v w : Value}, S v → S w → v.type? = w.type? → (Equals p v w ↔ p.serialize v = p.serialize w)

section any

variable {p : Program} {chains : Prop} {P : Value → Prop} {R : Rules} {I : Inside}

variable {url url' : String} {data x y : Value} {as bs : List Value}

/-- A content, if there is one, is a message. -/
lemma sameType_comm (one : x = .none ∨ x.type?.isSome = true) (other : y = .none ∨ y.type?.isSome = true) :
    (x.isPresent && x.sameType y) = (y.isPresent && y.sameType x) := by
  rcases one with rfl | one
  · rcases other with rfl | other
    · rfl
    · cases y <;> simp_all [Value.type?, Value.isPresent, Value.sameType]
  · rcases other with rfl | other
    · cases x <;> simp_all [Value.type?, Value.isPresent, Value.sameType]
    · cases x <;> simp [Value.type?] at one
      cases y <;> simp [Value.type?] at other
      simp [Value.isPresent, Value.sameType, Bool.beq_eq_decide_eq, eq_comm]

lemma AnyFits.content_cases (fits : AnyFits R I [.text url, data, x]) :
    (x = .none ∨ I.content x) ∧ ((∃ b, data = .bytes b) ∨ data = .none ∧ I.content x) := by
  obtain ⟨url', data', content, shape, -, rest⟩ := fits
  simp only [List.cons.injEq, and_true] at shape
  obtain ⟨-, rfl, rfl⟩ := shape
  rcases rest with ⟨b, rfl, -, held⟩ | ⟨rfl, held⟩
  · exact ⟨held, .inl ⟨b, rfl⟩⟩
  · exact ⟨.inr held, .inr ⟨rfl, held⟩⟩

/-- Which of the two is asked does not matter. -/
lemma AnyFits.slotsEqual_symm (comparable : p.Comparable) (messages : ∀ v, I.content v → v.type?.isSome = true)
    (symm : ∀ v w, I.content v ∧ v.Every P → I.content w ∧ w.Every P → Equals p v w → Equals p w v)
    (fits : AnyFits R I as) (fits' : AnyFits R I bs) (every : ∀ x ∈ as, x.Every P) (every' : ∀ x ∈ bs, x.Every P)
    (equals : Any.slotsEqual p as bs (equalSlots p as bs) = .ok true) :
    Any.slotsEqual p bs as (equalSlots p bs as) = .ok true := by
  obtain ⟨url, data, x, rfl, -⟩ := id fits
  obtain ⟨url', data', y, rfl, -⟩ := id fits'
  have held := fits.content_cases.1
  have held' := fits'.content_cases.1
  rw [slotsEqual_iff comparable] at equals ⊢
  rw [sameType_comm (held'.imp id (messages y)) (held.imp id (messages x))]
  refine ⟨equals.1.symm, ?_⟩
  split
  · rename_i compared
    have one := equals.2
    rw [if_pos compared] at one
    have set : x ≠ .none := by
      rintro rfl
      simp [Value.isPresent] at compared
    have set' : y ≠ .none := by
      rintro rfl
      exact set (equals_none_right_iff.1 one)
    exact symm x y ⟨held.resolve_left set, every x (by simp)⟩ ⟨held'.resolve_left set', every' y (by simp)⟩ one
  · rename_i compared
    have one := equals.2
    rw [if_neg compared] at one
    obtain ⟨s, s', bytes, bytes', same⟩ := one
    exact ⟨s', s, bytes', bytes, (Scalar.equal_comm s' s).trans same⟩

/-- The type and the bytes of a message that holds any other one, whose content, if it has one, is settled and written
as these bytes. -/
structure AnyWritten (p : Program) (S : Value → Prop) (url : String) (bytes : Bytes) (slots : List Value) : Prop where
  known : Any.valueBytes p (slots.map p.walk) = .ok (.bytes bytes)
  slots : ∃ data x, slots = [.text url, data, x] ∧ (x = .none ∨ S x) ∧ (x ≠ .none → p.serialize x = .ok bytes)

lemma AnyFits.exists_written (settles : Settles p S) {slots : List Value} (fits : AnyFits R I slots)
    (held : ∀ x ∈ slots, I.content x → S x)
    (cached : ∀ url data content, slots = [.text url, .bytes data, content] →
      content = .none ∨ p.serialize content = .ok data) :
    ∃ url bytes, AnyWritten p S url bytes slots := by
  obtain ⟨url, data, x, rfl, -⟩ := id fits
  obtain ⟨isContent, ⟨b, rfl⟩ | ⟨rfl, isHeld⟩⟩ := fits.content_cases
  · refine ⟨url, b, rfl, _, x, rfl, isContent.imp id (held x (by simp)), fun set => ?_⟩
    exact (cached url b x rfl).resolve_left set
  · have settled := held x (by simp) isHeld
    obtain ⟨bytes, written⟩ := settles.written settled
    refine ⟨url, bytes, ?_, _, x, rfl, .inr settled, fun _ => written⟩
    have contentBytes : Any.contentBytes p (p.walk x) = .ok bytes := written
    simp only [map_cons, map_nil, Any.valueBytes, contentBytes]
    rfl

/-- **Settled contents** are compared by their bytes, whatever is known of them. -/
lemma AnyWritten.slotsEqual_iff (comparable : p.Comparable) (settles : Settles p S) {bytes bytes' : Bytes}
    (one : AnyWritten p S url bytes as) (other : AnyWritten p S url' bytes' bs) :
    Any.slotsEqual p as bs (equalSlots p as bs) = .ok true ↔ url = url' ∧ bytes = bytes' := by
  obtain ⟨known, data, x, rfl, held, written⟩ := one
  obtain ⟨known', data', y, rfl, held', written'⟩ := other
  rw [Missive.slotsEqual_iff comparable]
  refine and_congr_right fun _ => ?_
  split
  · rename_i compared
    obtain ⟨present, sameType⟩ := Bool.and_eq_true_iff.1 compared
    have set : x ≠ .none := by
      rintro rfl
      cases present
    have isMessage := settles.message (held.resolve_left set)
    have set' : y ≠ .none := by
      rintro rfl
      cases x <;> simp [Value.sameType, Value.type?] at isMessage sameType
    have isMessage' := settles.message (held'.resolve_left set')
    have sameClass : x.type? = y.type? := by
      cases x <;> simp [Value.type?] at isMessage
      cases y <;> simp [Value.type?] at isMessage'
      simpa [Value.type?, Value.sameType] using sameType
    rw [settles.equals_iff (held.resolve_left set) (held'.resolve_left set') sameClass, written set, written' set']
    exact ⟨Except.ok.inj, congrArg _⟩
  · constructor
    · rintro ⟨s, s', isBytes, isBytes', same⟩
      obtain rfl : .bytes bytes = s := by simpa using known.symm.trans isBytes
      obtain rfl : .bytes bytes' = s' := by simpa using known'.symm.trans isBytes'
      simpa [Scalar.equal] using same
    · rintro rfl
      exact ⟨_, _, known, known', by simp [Scalar.equal]⟩

end any

/-! ## Messages -/

section messages

variable {p : Program} {chains : Prop} {P : Value → Prop} {R : Rules} {content : Value → Prop} {w : Sources}

/-- What is asked of contents: they are messages, equal to themselves whichever of two is asked.  To chain, they have
to be settled and agree with the bytes that are known. -/
structure ContentsEquate (p : Program) (chains : Prop) (P : Value → Prop) (content : Value → Prop) : Prop where
  message : ∀ v, content v → v.type?.isSome = true
  refl : ∀ v, content v → Same p v v
  symm : ∀ v w, content v ∧ v.Every P → content w ∧ w.Every P → Equals p v w → Equals p w v
  settles : chains → Settles p fun v => content v ∧ v.Every P
  cached : chains → ∀ v, P v → v.Cached p

lemma ContentsEquate.mono {Q : Value → Prop} (contents : ContentsEquate p chains P content) (weaker : ∀ v, Q v → P v) :
    ContentsEquate p chains Q content where
  message := contents.message
  refl := contents.refl
  symm := fun v w one other => contents.symm v w ⟨one.1, one.2.imp weaker⟩ ⟨other.1, other.2.imp weaker⟩
  settles := fun chain =>
    { message := fun one => (contents.settles chain).message ⟨one.1, one.2.imp weaker⟩
      written := fun one => (contents.settles chain).written ⟨one.1, one.2.imp weaker⟩
      equals_iff := fun one other =>
        (contents.settles chain).equals_iff ⟨one.1, one.2.imp weaker⟩ ⟨other.1, other.2.imp weaker⟩ }
  cached := fun chain v one => contents.cached chain v (weaker v one)

lemma type_eq_of_equals {a b : Content} (equals : Equals p a.value b.value) : a.head.type = b.head.type := by
  by_contra other
  simp only [Equals, Content.value, equal] at equals
  split at equals
  · cases equals
  · simp [other] at equals

lemma Typed.exists_value (typed : Typed p R content n t v) : ∃ m : Content, v = m.value ∧ m.head.type = t := by
  rw [typed_eq] at typed
  obtain ⟨c, m, -, rfl, fits⟩ := typed
  exact ⟨m, rfl, fits.type⟩

lemma Typed.type?_eq (typed : Typed p R content n t v) : v.type? = some t := by
  obtain ⟨m, rfl, rfl⟩ := typed.exists_value
  rfl

lemma Typed.isMessage (typed : Typed p R content n t v) : v.type?.isSome = true := by
  rw [typed.type?_eq]
  rfl

variable (plain : R.Plain) (comparable : p.Comparable)
  (shared : ∀ {t c}, p.plan? t = some c → c.isAny = true → c.isIndirected = true) (sources : ∀ v, P v → v.From w)
  (contents : ContentsEquate p chains P content)

include plain comparable shared sources contents

omit comparable shared sources contents in
lemma equates_inside (below : ∀ k < n, ∀ t, Equates p chains fun v => Typed p R content k t v ∧ v.Every P) :
    (inside p R content n).Equates p chains P := by
  have nothing : ∀ {S : Value → Prop}, (∀ v, ¬S v) → Equates p chains S := fun none =>
    (equates_scalar plain .bool).mono fun v here => absurd here (none v)
  constructor
  · intro t
    rcases n with _ | n
    · refine nothing ?_
      rintro v ⟨⟨k, impossible, -⟩, -⟩
      cases impossible
    · refine (below n (by omega) t).mono ?_
      rintro v ⟨⟨k, ⟨rfl⟩, typed⟩, every⟩
      exact ⟨typed, every⟩
  · intro t
    rcases n with _ | _ | n
    · refine nothing ?_
      rintro v ⟨⟨k, impossible, -⟩, -⟩
      cases impossible
    · refine nothing ?_
      rintro v ⟨⟨k, impossible, -⟩, -⟩
      cases impossible
    · refine (below n (by omega) t).mono ?_
      rintro v ⟨⟨k, ⟨rfl⟩, typed⟩, every⟩
      exact ⟨typed, every⟩

section level

variable {c : ClassPlan} {a b d : Content} (inner : (inside p R content n).Equates p chains P)

/-- Messages of a class with so many levels below them, all parts of which are as a predicate says. -/
def Content.Sits (p : Program) (R : Rules) (content P : Value → Prop) (n : Nat) (t : TypeId) (c : ClassPlan)
    (m : Content) : Prop :=
  m.Fits R (inside p R content n) t c ∧ m.value.Every P

omit sources in
lemma Typed.itself (typed : Typed p R content n t v) : Same p v v :=
  typed.same_self plain.numeric comparable shared fun v held => ⟨contents.refl v held, contents.message v held⟩

lemma Content.Sits.equals_iff (found : p.plan? t = some c) (one : a.Sits p R content P n t c)
    (other : b.Sits p R content P n t c) : Equals p a.value b.value ↔ a.Agrees p c b := by
  have reflexive : (inside p R content n).Reflexive p :=
    reflexive_inside (fun k _ t v typed => typed.itself plain comparable shared contents) fun v held =>
      ⟨contents.refl v held, contents.message v held⟩
  exact equals_value_iff plain.numeric reflexive comparable found (shared found) one.1 other.1 (one.2.imp sources)
    (other.2.imp sources)

include inner

omit comparable shared contents in
/-- What the messages of a class have in a slot. -/
lemma equates_slotOf (isPlain : c.isAny = false) (i : Nat) :
    Equates p chains fun v => ∃ m : Content, m.Sits p R content P n t c ∧ v = m.slot i := by
  cases found : c.slots[i]? with
  | none =>
    refine (equates_scalar plain .bool).optional.mono ?_
    rintro _ ⟨m, ⟨fits, -⟩, rfl⟩
    left
    rw [Content.slot, getD_eq_default]
    rw [fits.length isPlain]
    exact getElem?_eq_none_iff.1 found
  | some plan =>
    refine (equates_slot plain inner sources plan t i).mono ?_
    rintro _ ⟨m, ⟨fits, every⟩, rfl⟩
    refine ⟨fits.slots isPlain i plan found, every.slot ?_⟩
    rw [fits.length isPlain]
    exact (List.getElem?_eq_some_iff.1 found).1

omit shared in
lemma Content.Agrees.symm (one : a.Sits p R content P n t c) (other : b.Sits p R content P n t c)
    (agrees : a.Agrees p c b) : b.Agrees p c a where
  unknown := agrees.unknown.symm
  slots := fun isPlain i =>
    (equates_slotOf plain sources inner isPlain i).symm ⟨a, one, rfl⟩ ⟨b, other, rfl⟩ (agrees.slots isPlain i)
  any := fun isAny =>
    (one.1.any isAny).slotsEqual_symm comparable contents.message contents.symm (other.1.any isAny)
      (fun x member => one.2.part (mem_append_left _ (mem_append_left _ member)))
      (fun x member => other.2.part (mem_append_left _ (mem_append_left _ member))) (agrees.any isAny)
  extensions := by
    refine agrees.extensions.flip.imp fun y there x here pair => ⟨pair.1.symm, ?_⟩
    have fits := (one.1.extensions x here).2.2.2
    rw [pair.1] at fits
    exact (equates_extension plain inner y.1).symm ⟨fits, one.2.extension here⟩
      ⟨(other.1.extensions y there).2.2.2, other.2.extension there⟩ pair.2

omit plain comparable shared sources inner in
lemma Content.Sits.exists_written (found : p.plan? t = some c) (chain : chains) (sits : a.Sits p R content P n t c)
    (isAny : c.isAny = true) : ∃ url bytes, AnyWritten p (fun v => content v ∧ v.Every P) url bytes a.slots := by
  have isClass : p.plan? a.head.type = some c := sits.1.type ▸ found
  refine (sits.1.any isAny).exists_written (contents.settles chain) (fun x member held => ⟨held, ?_⟩) ?_
  · exact sits.2.part (mem_append_left _ (mem_append_left _ member))
  · exact contents.cached chain a.value sits.2.here c isClass isAny

omit shared in
lemma Content.Agrees.trans (found : p.plan? t = some c) (chain : chains) (one : a.Sits p R content P n t c)
    (two : b.Sits p R content P n t c) (three : d.Sits p R content P n t c) (first : a.Agrees p c b)
    (second : b.Agrees p c d) : a.Agrees p c d where
  unknown := first.unknown.trans second.unknown
  slots := fun isPlain i =>
    (equates_slotOf plain sources inner isPlain i).trans chain ⟨a, one, rfl⟩ ⟨b, two, rfl⟩ ⟨d, three, rfl⟩
      (first.slots isPlain i) (second.slots isPlain i)
  any := fun isAny => by
    have settles := contents.settles chain
    obtain ⟨url, bytes, written⟩ := one.exists_written contents found chain isAny
    obtain ⟨url', bytes', written'⟩ := two.exists_written contents found chain isAny
    obtain ⟨url'', bytes'', written''⟩ := three.exists_written contents found chain isAny
    have here := (written.slotsEqual_iff comparable settles written').1 (first.any isAny)
    have there := (written'.slotsEqual_iff comparable settles written'').1 (second.any isAny)
    exact (written.slotsEqual_iff comparable settles written'').2 ⟨here.1.trans there.1, here.2.trans there.2⟩
  extensions := by
    refine (first.extensions.trans second.extensions).imp ?_
    rintro x here z there ⟨y, between, pair, pair'⟩
    refine ⟨pair.1.trans pair'.1, ?_⟩
    have fits := (one.1.extensions x here).2.2.2
    have fits' := (two.1.extensions y between).2.2.2
    rw [pair.1, pair'.1] at fits
    rw [pair'.1] at fits'
    exact (equates_extension plain inner z.1).trans chain ⟨fits, one.2.extension here⟩ ⟨fits', two.2.extension between⟩
      ⟨(three.1.extensions z there).2.2.2, three.2.extension there⟩ pair.2 pair'.2

/-- **One level.**  Equality on messages, if it is on those inside. -/
lemma equates_message (t : TypeId) : Equates p chains fun v => Typed p R content n t v ∧ v.Every P := by
  have opened : ∀ {v}, Typed p R content n t v ∧ v.Every P →
      ∃ c m, p.plan? t = some c ∧ v = Content.value m ∧ m.Sits p R content P n t c := by
    rintro v ⟨typed, every⟩
    rw [typed_eq] at typed
    obtain ⟨c, m, found, rfl, fits⟩ := typed
    exact ⟨c, m, found, rfl, fits, every⟩
  constructor
  · intro v v' one other isSame
    exact (sources v one.2.here).eq_of_isSame (sources v' other.2.here) isSame
  · intro v one
    exact (one.1.itself plain comparable shared contents).1
  · intro v v' one other equals
    obtain ⟨c, a, found, rfl, sits⟩ := opened one
    obtain ⟨c', b, found', rfl, sits'⟩ := opened other
    cases found.symm.trans found'
    rw [sits.equals_iff plain comparable shared sources contents found sits'] at equals
    rw [sits'.equals_iff plain comparable shared sources contents found sits]
    exact equals.symm plain comparable sources contents inner sits sits'
  · intro chain u v v' one two three first second
    obtain ⟨c, a, found, rfl, sits⟩ := opened one
    obtain ⟨c', b, found', rfl, sits'⟩ := opened two
    obtain ⟨c'', d, found'', rfl, sits''⟩ := opened three
    cases found.symm.trans found'
    cases found.symm.trans found''
    rw [sits.equals_iff plain comparable shared sources contents found sits'] at first
    rw [sits'.equals_iff plain comparable shared sources contents found sits''] at second
    rw [sits.equals_iff plain comparable shared sources contents found sits'']
    exact first.trans plain comparable sources contents inner found chain sits sits' sits'' second

end level

/-- **All levels.** -/
lemma equates_typed (n : Nat) (t : TypeId) : Equates p chains fun v => Typed p R content n t v ∧ v.Every P := by
  induction n using Nat.strong_induction_on generalizing t with
  | _ n ih =>
    exact equates_message plain comparable shared sources contents (equates_inside plain fun k less t => ih k less t) t

/-- **All classes.** -/
lemma equates_classes (n : Nat) : Equates p chains fun v => (∃ t, Typed p R content n t v) ∧ v.Every P := by
  have equates := equates_typed plain comparable shared sources contents n
  have same : ∀ {v v' t t'}, Typed p R content n t v → Typed p R content n t' v' → Equals p v v' → t = t' := by
    intro v v' t t' typed typed' equals
    obtain ⟨m, rfl, type⟩ := typed.exists_value
    obtain ⟨m', rfl, type'⟩ := typed'.exists_value
    rw [← type, ← type', type_eq_of_equals equals]
  constructor
  · intro v v' one other isSame
    exact (sources v one.2.here).eq_of_isSame (sources v' other.2.here) isSame
  · rintro v ⟨⟨t, typed⟩, every⟩
    exact (equates t).refl ⟨typed, every⟩
  · rintro v v' ⟨⟨t, typed⟩, every⟩ ⟨⟨t', typed'⟩, every'⟩ equals
    obtain rfl := same typed typed' equals
    exact (equates t).symm ⟨typed, every⟩ ⟨typed', every'⟩ equals
  · rintro chain u v v' ⟨⟨t, typed⟩, every⟩ ⟨⟨t', typed'⟩, every'⟩ ⟨⟨t'', typed''⟩, every''⟩ first second
    obtain rfl := same typed typed' first
    obtain rfl := same typed' typed'' second
    exact (equates t).trans chain ⟨typed, every⟩ ⟨typed', every'⟩ ⟨typed'', every''⟩ first second

end messages

end Missive
