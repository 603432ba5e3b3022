import Missive.Proofs.Message.Same
import Missive.Proofs.Message.Typed

/-!
# Equal to itself

A typed message without not-a-numbers is equal to itself, whatever it holds: its slots are, its extensions
are, and so is the content of a message that holds any other one.
-/

namespace Missive

open Plan

/-- Rules that allow no not-a-numbers. -/
def Rules.Numeric (R : Rules) : Prop := ∀ type s, R.scalar type s → s.isNaN = false

/-- The messages inside a message are equal to themselves, and a content is a message. -/
structure Inside.Reflexive (p : Program) (I : Inside) : Prop extends I.Only fun v => Same p v v where
  content : ∀ v, I.content v → Same p v v ∧ v.type?.isSome = true

section itself

variable {p : Program} {R : Rules} {I : Inside} {t : TypeId} {c : ClassPlan} {v : Value}

lemma Rules.Holds.same_self (numeric : R.Numeric) {type : FieldType} (holds : R.Holds type v) :
    Same p v v := by
  obtain ⟨s, rfl, scalar⟩ := holds
  exact Missive.same_self (numeric type s scalar)

lemma same_list_self {items : List Value} (each : ∀ x ∈ items, Same p x x) :
    Same p (.list items) (.list items) :=
  same_list (List.forall₂_same.2 each)

/-- Values without not-a-numbers are equal to themselves, if their parts are. -/
lemma Rules.Numeric.closed (numeric : R.Numeric) : R.Closed fun v => Same p v v where
  none := same_self rfl
  scalar := fun holds => same_self (numeric _ _ holds)
  list := same_list_self
  map := by
    intro es distinct keys values
    refine same_map (List.forall₂_same.2 fun e member => ⟨rfl, values e member⟩) distinct fun e member => ?_
    obtain ⟨type, s, isKey, scalar⟩ := keys e member
    rw [isKey, Key.equal]
    exact Scalar.equal_self (numeric _ _ scalar)
  case := same_case

section fields

variable (numeric : R.Numeric) (inner : I.Reflexive p)

include numeric inner

lemma fits_slot_same_self {slot : Nat} {plan : SlotPlan} (fits : plan.Fits R I t slot v) : Same p v v :=
  numeric.closed.slot inner.toOnly fits

lemma fits_extension_same_self {e : Extension} (fits : e.Fits R I v) : Same p v v :=
  numeric.closed.extension inner.toOnly fits

omit numeric in
/-- Of a message that holds any other one, the content is compared if there is one, and else the bytes. -/
lemma AnyFits.slotsEqual_self (comparable : p.Comparable) {slots : List Value} (fits : AnyFits R I slots) :
    Any.slotsEqual p slots slots (equalSlots p slots slots) = .ok true := by
  obtain ⟨url, data, content, rfl, -, rest⟩ := fits
  refine (slotsEqual_iff comparable).2 ⟨rfl, ?_⟩
  by_cases none : content = .none
  · -- What is compared by its bytes has them at hand.
    obtain ⟨b, rfl⟩ : ∃ b, data = .bytes b := by
      rcases rest with ⟨b, rfl, -⟩ | ⟨-, inside⟩
      · exact ⟨b, rfl⟩
      · exact absurd (inner.content _ inside).2 (by simp [none, Value.type?])
    subst none
    exact ⟨.bytes b, .bytes b, rfl, rfl, by simp [Scalar.equal]⟩
  · have inside : I.content content := by
      rcases rest with ⟨-, -, -, rfl | inside⟩ | ⟨-, inside⟩
      · exact absurd rfl none
      · exact inside
      · exact inside
    obtain ⟨same, isMessage⟩ := inner.content _ inside
    cases content with
    | message =>
      rw [if_pos (by simp [Value.isPresent, Value.sameType])]
      exact same.1
    | _ => simp [Value.type?] at isMessage

/-- **Messages** without not-a-numbers are equal to themselves, if those inside them are. -/
lemma Content.Fits.same_self (comparable : p.Comparable) {m : Content} (found : p.plan? t = some c)
    (shared : c.isAny = true → c.isIndirected = true) (fits : m.Fits R I t c) : Same p m.value m.value := by
  have whole : equal p m.value m.value = .ok true := by
    refine equal_value comparable (fits.type ▸ found) shared rfl ⟨fits.plain, fits.plain⟩ ⟨fits.whole, fits.whole⟩ rfl
      (fun plain => List.forall₂_same.2 fun v member => ?_)
      (fun isAny => (fits.any isAny).slotsEqual_self inner comparable) rfl fits.distinct fun x member => ?_
    · obtain ⟨i, inside, rfl⟩ := List.getElem_of_mem member
      have room : i < c.slots.length := fits.length plain ▸ inside
      have slot := fits.slots plain i _ (List.getElem?_eq_getElem room)
      simpa [Content.slot, inside] using fits_slot_same_self numeric inner slot
    · obtain ⟨-, -, -, extensionFits⟩ := fits.extensions x member
      exact ⟨x.2, member, fits_extension_same_self numeric inner extensionFits⟩
  exact ⟨whole, whole⟩

end fields

variable {content : Value → Prop} {n : Nat}

lemma reflexive_inside (below : ∀ k < n, ∀ t v, Typed p R content k t v → Same p v v)
    (contents : ∀ v, content v → Same p v v ∧ v.type?.isSome = true) :
    (inside p R content n).Reflexive p where
  toOnly := only_inside below
  content := contents

/-- **All levels.** -/
lemma Typed.same_self (numeric : R.Numeric) (comparable : p.Comparable)
    (shared : ∀ {t c}, p.plan? t = some c → c.isAny = true → c.isIndirected = true)
    (contents : ∀ v, content v → Same p v v ∧ v.type?.isSome = true) (typed : Typed p R content n t v) :
    Same p v v := by
  induction n using Nat.strong_induction_on generalizing t v with
  | _ n ih =>
    rw [typed_eq] at typed
    obtain ⟨c, m, found, rfl, fits⟩ := typed
    exact fits.same_self numeric (reflexive_inside (fun k less _ _ => ih k less) contents) comparable found
      (shared found)

end itself

end Missive
