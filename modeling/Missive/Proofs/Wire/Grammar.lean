import Missive.Proofs.Wire.Scalar
import Missive.Wire.Cursor

/-!
# Well-formed fields

`WireFields` says which bytes are well-formed fields: a tag and a payload framed as the wire type of the
tag asks, or two tags around the fields of a group.  Any spelling of a varint will do, not only the
shortest.
-/

namespace Missive

open List

variable {wire : WireType} {number levels levels' : Nat}

/-! ## Tags -/

/-- Bytes that spell the tag of a field. -/
structure SpellsTag (bytes : Bytes) (number : Nat) (wire : WireType) : Prop where
  varint : Varint.Spells bytes (number * 8 + wire.number)
  positive : 1 ≤ number
  bounded : number ≤ maxFieldNumber

lemma WireType.number_of_ofNumber? {n : Nat} (known : ofNumber? n = some wire) : n = wire.number := by
  unfold ofNumber? at known
  split at known <;> cases known <;> rfl

lemma SpellsTag.ne_nil {bytes : Bytes} (tagged : SpellsTag bytes number wire) : bytes ≠ [] := tagged.varint.ne_nil

lemma spellsTag_makeTag (positive : 1 ≤ number) (bounded : number ≤ maxFieldNumber)
    (wire : WireType) : SpellsTag (Varint.encode (makeTag number wire)) number wire := by
  refine ⟨?_, positive, bounded⟩
  have small : number * 8 + wire.number < word64 := by
    have : wire.number ≤ 5 := by cases wire <;> decide
    have limit : maxFieldNumber * 8 + 5 < word64 := by decide
    omega
  have same : makeTag number wire = ((number * 8 + wire.number : Nat) : Int) := by
    simp [makeTag]
  rw [same]
  exact Varint.spells_encode small

/-! ## Fields -/

/-- The payload of a field of a wire type, where that is no group. -/
def WireType.Frames : WireType → Bytes → Prop
  | varint, payload => ∃ n, Varint.Spells payload n
  | lengthDelimited, payload =>
    ∃ size data, payload = size ++ data ∧ Varint.Spells size data.length
  | fixed32, payload => payload.length = 4
  | fixed64, payload => payload.length = 8
  | startGroup, _ | endGroup, _ => False

/-- Well-formed fields in a row, with their numbers, and with groups on at most so many levels. -/
inductive WireFields : (levels : Nat) → (numbers : List Nat) → Bytes → Prop
  | nil {levels : Nat} : WireFields levels [] []
  | flat {levels number : Nat} {wire : WireType} {tag payload rest : Bytes} {numbers : List Nat}
      (tagged : SpellsTag tag number wire) (framed : wire.Frames payload)
      (later : WireFields levels numbers rest) :
      WireFields levels (number :: numbers) (tag ++ (payload ++ rest))
  | group {levels number : Nat} {opening fields closing rest : Bytes} {inner numbers : List Nat}
      (opens : SpellsTag opening number .startGroup) (inside : WireFields levels inner fields)
      (closes : SpellsTag closing number .endGroup) (later : WireFields (levels + 1) numbers rest) :
      WireFields (levels + 1) (number :: numbers) (opening ++ (fields ++ (closing ++ rest)))

/-- What stands behind the tag of a field: a payload that is framed as the wire type asks, or the fields
of a group up to the tag that ends it. -/
inductive WirePayload : (levels number : Nat) → WireType → Bytes → Prop
  | flat {levels number : Nat} {wire : WireType} {payload : Bytes} (framed : wire.Frames payload) :
      WirePayload levels number wire payload
  | group {levels number : Nat} {fields closing : Bytes} {inner : List Nat}
      (inside : WireFields levels inner fields) (closes : SpellsTag closing number .endGroup) :
      WirePayload (levels + 1) number .startGroup (fields ++ closing)

section grammar

variable {tag payload bytes rest : Bytes} {numbers others : List Nat}

lemma WirePayload.ne_endGroup (framed : WirePayload levels number wire payload) : wire ≠ .endGroup := by
  rintro rfl
  cases framed with
  | flat framed => exact framed

section

variable (tagged : SpellsTag tag number wire) (framed : WirePayload levels number wire payload)

include tagged framed

lemma WirePayload.cons (later : WireFields levels numbers rest) :
    WireFields levels (number :: numbers) (tag ++ (payload ++ rest)) := by
  cases framed with
  | flat framed => exact .flat tagged framed later
  | group inside closes =>
    rw [append_assoc]
    exact .group tagged inside closes later

lemma WirePayload.single :
    WireFields levels [number] (tag ++ payload) := by
  simpa using framed.cons tagged .nil

end

/-- Fields one by one, whatever their wire types. -/
@[elab_as_elim]
lemma WireFields.fieldwise {motive : ∀ bytes numbers, WireFields levels numbers bytes → Prop}
    (fields : WireFields levels numbers bytes) (nil : motive [] [] .nil)
    (cons : ∀ {number wire tag payload rest numbers} (tagged : SpellsTag tag number wire)
      (framed : WirePayload levels number wire payload) (later : WireFields levels numbers rest),
      motive _ _ later → motive _ _ (framed.cons tagged later)) : motive _ _ fields := by
  induction fields with
  | nil => exact nil
  | flat tagged framed later ih => exact cons tagged (.flat framed) later (ih nil cons)
  | group opens inside closes later _ ih =>
    have whole := cons opens (.group inside closes) later (ih nil cons)
    simpa only [append_assoc] using whole

/-- A single field is a tag and a payload. -/
lemma WireFields.exists_single (field : WireFields levels [number] bytes) :
    ∃ tag payload wire, SpellsTag tag number wire ∧ WirePayload levels number wire payload
      ∧ bytes = tag ++ payload := by
  cases field with
  | flat tagged framed later =>
    cases later
    exact ⟨_, _, _, tagged, .flat framed, by simp⟩
  | group opens inside closes later =>
    cases later
    exact ⟨_, _, _, opens, .group inside closes, by simp⟩

lemma WireFields.append (first : WireFields levels numbers bytes)
    (second : WireFields levels others rest) : WireFields levels (numbers ++ others) (bytes ++ rest) := by
  induction first using WireFields.fieldwise with
  | nil => exact second
  | cons tagged framed _ ih => simpa using framed.cons tagged ih

lemma WireFields.mono (fields : WireFields levels numbers bytes) (more : levels ≤ levels') :
    WireFields levels' numbers bytes := by
  induction fields generalizing levels' with
  | nil => exact .nil
  | flat tagged framed _ ih => exact .flat tagged framed (ih more)
  | @group levels _ _ _ _ _ _ _ opens _ closes _ ih ihLater =>
    obtain ⟨k, rfl⟩ : ∃ k, levels' = k + 1 := ⟨levels' - 1, by omega⟩
    exact .group opens (ih (by omega)) closes (ihLater more)

lemma WirePayload.mono (framed : WirePayload levels number wire payload) (more : levels ≤ levels') :
    WirePayload levels' number wire payload := by
  cases framed with
  | flat framed => exact .flat framed
  | @group levels _ _ _ _ inside closes =>
    obtain ⟨k, rfl⟩ : ∃ k, levels' = k + 1 := ⟨levels' - 1, by omega⟩
    exact .group (inside.mono (by omega)) closes

end grammar

/-! ## One way to read -/

section inj

variable {number' : Nat} {wire' : WireType} {a b rest rest' : Bytes}

lemma Varint.Spells.append_inj {n n' : Nat} (one : Varint.Spells a n) (other : Varint.Spells b n')
    (same : a ++ rest = b ++ rest') : a = b ∧ n = n' ∧ rest = rest' := by
  have decoded := one.decode_append rest
  rw [same, other.decode_append rest'] at decoded
  cases decoded
  exact ⟨append_cancel_right same, rfl, rfl⟩

lemma SpellsTag.append_inj (one : SpellsTag a number wire) (other : SpellsTag b number' wire')
    (same : a ++ rest = b ++ rest') : a = b ∧ number = number' ∧ wire = wire' ∧ rest = rest' := by
  obtain ⟨rfl, tags, rfl⟩ := one.varint.append_inj other.varint same
  have small : ∀ w : WireType, w.number < 8 := by
    intro w
    cases w <;> decide
  have := small wire
  have := small wire'
  have wires : wire.number = wire'.number := by omega
  refine ⟨rfl, by omega, ?_, rfl⟩
  cases wire <;> cases wire' <;> first | rfl | exact absurd wires (by decide)

lemma WireType.Frames.append_inj (one : wire.Frames a) (other : wire.Frames b)
    (same : a ++ rest = b ++ rest') : a = b ∧ rest = rest' := by
  cases wire with
  | varint =>
    obtain ⟨n, one⟩ := one
    obtain ⟨n', other⟩ := other
    obtain ⟨rfl, -, rfl⟩ := one.append_inj other same
    exact ⟨rfl, rfl⟩
  | lengthDelimited =>
    obtain ⟨size, data, rfl, one⟩ := one
    obtain ⟨size', data', rfl, other⟩ := other
    rw [append_assoc, append_assoc] at same
    obtain ⟨rfl, length, behind⟩ := one.append_inj other same
    obtain ⟨rfl, rfl⟩ := append_inj behind length
    exact ⟨rfl, rfl⟩
  | fixed32 => exact append_inj same (one.trans other.symm)
  | fixed64 => exact append_inj same (one.trans other.symm)
  | startGroup => exact one.elim
  | endGroup => exact one.elim

/-- A group ends at the first tag that can end it. -/
lemma WireFields.append_inj {numbers numbers' : List Nat} {fields fields' : Bytes}
    (one : WireFields levels numbers fields) (closes : SpellsTag a number .endGroup)
    (other : WireFields levels' numbers' fields') (closes' : SpellsTag b number' .endGroup)
    (same : fields ++ (a ++ rest) = fields' ++ (b ++ rest')) :
    fields = fields' ∧ number = number' ∧ a = b ∧ rest = rest' := by
  induction one generalizing levels' numbers' fields' number number' a b rest rest' with
  | nil =>
    cases other with
    | nil =>
      obtain ⟨rfl, rfl, -, rfl⟩ := closes.append_inj closes' same
      exact ⟨rfl, rfl, rfl, rfl⟩
    | flat tagged framed =>
      simp only [nil_append, append_assoc] at same
      obtain ⟨-, -, rfl, -⟩ := closes.append_inj tagged same
      exact framed.elim
    | group opens =>
      simp only [nil_append, append_assoc] at same
      obtain ⟨-, -, impossible, -⟩ := closes.append_inj opens same
      cases impossible
  | flat tagged framed _ ih =>
    simp only [append_assoc] at same
    cases other with
    | nil =>
      obtain ⟨-, -, rfl, -⟩ := tagged.append_inj closes' same
      exact framed.elim
    | flat tagged' framed' later' =>
      simp only [append_assoc] at same
      obtain ⟨rfl, -, rfl, behind⟩ := tagged.append_inj tagged' same
      obtain ⟨rfl, others⟩ := framed.append_inj framed' behind
      obtain ⟨rfl, rest⟩ := ih closes later' closes' others
      exact ⟨rfl, rest⟩
    | group opens =>
      simp only [append_assoc] at same
      obtain ⟨-, -, rfl, -⟩ := tagged.append_inj opens same
      exact framed.elim
  | group opens inside closing _ ihInside ihLater =>
    simp only [append_assoc] at same
    cases other with
    | nil =>
      obtain ⟨-, -, impossible, -⟩ := opens.append_inj closes' same
      cases impossible
    | flat tagged framed =>
      simp only [append_assoc] at same
      obtain ⟨-, -, rfl, -⟩ := opens.append_inj tagged same
      exact framed.elim
    | group opens' inside' closing' later' =>
      simp only [append_assoc] at same
      obtain ⟨rfl, -, -, behind⟩ := opens.append_inj opens' same
      obtain ⟨rfl, -, rfl, others⟩ := ihInside closing inside' closing' behind
      obtain ⟨rfl, rest⟩ := ihLater closes later' closes' others
      exact ⟨rfl, rest⟩

/-- A payload ends in one place at most, however deep the groups in it may be. -/
lemma WirePayload.append_inj (one : WirePayload levels number wire a) (other : WirePayload levels' number wire b)
    (same : a ++ rest = b ++ rest') : a = b ∧ rest = rest' := by
  cases one with
  | flat framed =>
    cases other with
    | flat framed' => exact framed.append_inj framed' same
    | group => exact framed.elim
  | group inside closes =>
    cases other with
    | flat framed => exact framed.elim
    | group inside' closes' =>
      simp only [append_assoc] at same
      obtain ⟨rfl, -, rfl, rfl⟩ := inside.append_inj closes inside' closes' same
      exact ⟨rfl, rfl⟩

end inj

end Missive
